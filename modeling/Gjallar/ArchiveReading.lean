import Gjallar.ArchiveErrors

/-!
# What the archive parser reads

The lines of an archive's configuration are ended by line feeds. The parser also splits them at
other line boundaries, so it reads a line as it stands only when the pieces of the line say no more
than the line.
-/
namespace Gjallar.ArchiveConfig

open Gjallar.Text Gjallar.TextLines Gjallar.Data Gjallar.Operation Gjallar.Regex
  Gjallar.Regex.Pattern

/-! ### Kinds of lines -/

def IsBlank (line : Str) : Prop := ∀ c ∈ line, isSpace c = true

def IsComment (line : Str) : Prop := line.head? = some '#' ∧ ¬ hintPrefix <+: line

/-- The line of a mapping hint. -/
def Hint.line (hint : Hint) : Str :=
  hintPrefix ++ ("scsi0:drive-scsi0:" : Str) ++ hint.storageId ++ (":" : Str) ++ hint.format ++
    (":" : Str)

/-- An allowed key, a colon, blanks and the rest of the line as the value. -/
def IsEntry (line key value : Str) : Prop :=
  key ∈ allowed ∧ ∃ blanks, line = key ++ ':' :: (blanks ++ value) ∧
    (∀ c ∈ blanks, isSpace c = true) ∧ ∀ c ∈ value.head?, isSpace c = false

/-- The lines that line feeds end, without their carriage returns. -/
def archiveLines (text : Str) : List Str := (newlineLines text).map dropReturn

theorem isSpace_of_isLineBoundary {c : Char} (h : isLineBoundary c = true) : isSpace c = true := by
  simp only [isLineBoundary, isSpace, Bool.or_eq_true, Bool.and_eq_true, decide_eq_true_eq,
    beq_iff_eq] at h ⊢
  omega

theorem allowed_keys : ∀ key ∈ allowed, (∀ c ∈ key, isKeyChar c = true) ∧
    ∃ c ∈ key.head?, 'a' ≤ c ∧ c ≤ 'z' := by
  have hall : ∀ key ∈ allowed, (key.all isKeyChar &&
      key.head?.any fun c => decide ('a' ≤ c ∧ c ≤ 'z')) = true := by decide
  intro key hkey
  have hboth := hall key hkey
  rw [Bool.and_eq_true, List.all_eq_true, Option.any_eq_true] at hboth
  obtain ⟨hchars, c, hc, hrange⟩ := hboth
  exact ⟨hchars, c, hc, of_decide_eq_true hrange⟩

theorem isKeyChar_not_space {c : Char} (h : isKeyChar c = true) : isSpace c = false := by
  simp only [isKeyChar, isAsciiDigit, Bool.or_eq_true, Bool.and_eq_true, decide_eq_true_eq,
    beq_iff_eq, Char.le_def, UInt32.le_iff_toNat_le] at h
  rw [Bool.eq_false_iff]
  intro hspace
  simp only [isSpace, Bool.or_eq_true, Bool.and_eq_true, decide_eq_true_eq, beq_iff_eq] at hspace
  have ha : ('a' : Char).val.toNat = 97 := rfl
  have hz : ('z' : Char).val.toNat = 122 := rfl
  have hc : c.val.toNat = c.toNat := rfl
  rcases h with ((h | h) | rfl) | rfl
  · omega
  · omega
  · revert hspace
    decide
  · revert hspace
    decide

theorem readEntry_eq_some {line key value : Str} (h : readEntry line = some (key, value)) :
    (∀ c ∈ key, isKeyChar c = true) ∧ ∃ blanks, line = key ++ ':' :: (blanks ++ value) ∧
      (∀ c ∈ blanks, isSpace c = true) ∧ ∀ c ∈ value.head?, isSpace c = false := by
  have hline := List.takeWhile_append_dropWhile (p := isKeyChar) (l := line)
  unfold readEntry at h
  dsimp only at h
  split at h
  · rename_i rest hrest
    split at h
    · cases h
      refine ⟨fun c hc => List.mem_takeWhile_imp hc, rest.takeWhile isSpace, ?_,
        fun c hc => List.mem_takeWhile_imp hc, ?_⟩
      · rw [List.takeWhile_append_dropWhile, ← hrest, hline]
      · intro c hc
        have hhead := List.head?_dropWhile_not isSpace rest
        rw [hc] at hhead
        simpa using hhead
    · cases h
  · cases h

theorem readEntry_of_isEntry {line key value : Str} (h : IsEntry line key value) :
    readEntry line = some (key, value) := by
  obtain ⟨hkey, blanks, rfl, hblanks, hvalue⟩ := h
  obtain ⟨hchars, hfirst⟩ := allowed_keys key hkey
  obtain ⟨htake, hdrop⟩ := span_of_run (t := ':' :: (blanks ++ value)) hchars (by
    rintro c ⟨⟩
    decide)
  obtain ⟨-, hrest⟩ := span_of_run hblanks hvalue
  have hhead : (key.head?.any fun c => 'a' ≤ c && c ≤ 'z') = true := by
    simpa [Option.any_eq_true] using hfirst
  unfold readEntry
  simp only [htake, hdrop, if_pos hhead, hrest]

theorem isEntry_iff {line key value : Str} :
    IsEntry line key value ↔ key ∈ allowed ∧ readEntry line = some (key, value) := by
  constructor
  · exact fun h => ⟨h.1, readEntry_of_isEntry h⟩
  · rintro ⟨hkey, h⟩
    exact ⟨hkey, (readEntry_eq_some h).2⟩

theorem readHint_eq_some {line : Str} {hint : Hint} (h : readHint line = some hint) :
    line = hint.line := by
  obtain ⟨m, hm, rfl⟩ := Option.map_eq_some_iff.mp h
  obtain ⟨-, -, hmatch⟩ := fullmatch_eq_some hm
  simp only [hintLine, matches_seq, matches_lit, matches_group, matches_oneOf] at hmatch
  obtain ⟨_, _, _, _, rfl, hgroups, ⟨rfl, rfl⟩, storage, _, _, _, rfl, rfl, ⟨g, -, rfl⟩, _, _, _, _,
    rfl, rfl, ⟨rfl, rfl⟩, format, _, _, _, rfl, rfl, ⟨g', ⟨-, rfl⟩, rfl⟩, rfl, rfl⟩ := hmatch
  have hlookup : m.groups.reverse = [(4, format), (3, storage)] ++ g.reverse := by
    rw [hgroups]
    simp
  have hstorage : m.group 3 = some storage := by
    rw [Match.group, hlookup]
    rfl
  have hformat : m.group 4 = some format := by
    rw [Match.group, hlookup]
    rfl
  simp only [Hint.line, hstorage, hformat, Option.getD_some, List.append_assoc]

/-! ### One line -/

theorem isBlank_iff {line : Str} : IsBlank line ↔ strip line = [] := (strip_eq_nil_iff line).symm

theorem readEntry_of_not_key {c : Char} {line : Str} (hc : isKeyChar c = false) (hcolon : c ≠ ':') :
    readEntry (c :: line) = none := by
  unfold readEntry
  rw [List.dropWhile_cons_of_neg (by simp [hc])]
  simp only
  split
  · rename_i heq
    cases heq
    exact absurd rfl hcolon
  · rfl

theorem readEntry_of_isBlank {line : Str} (h : IsBlank line) : readEntry line = none := by
  cases line with
  | nil => rfl
  | cons c line =>
      have hc := h c List.mem_cons_self
      refine readEntry_of_not_key ?_ ?_
      · rw [Bool.eq_false_iff]
        intro hkey
        rw [isKeyChar_not_space hkey] at hc
        cases hc
      · rintro rfl
        exact absurd hc (by decide)

theorem readEntry_of_hash {line : Str} (h : line.head? = some '#') : readEntry line = none := by
  cases line with
  | nil => cases h
  | cons c line =>
      cases h
      exact readEntry_of_not_key (by decide) (by decide)

theorem hintPrefix_of_readHint {line : Str} {hint : Hint} (h : readHint line = some hint) :
    hintPrefix <+: line := by
  rw [readHint_eq_some h]
  simp only [Hint.line, List.append_assoc]
  exact ⟨_, rfl⟩

theorem head_of_hintPrefix {line : Str} (h : hintPrefix <+: line) : line.head? = some '#' := by
  obtain ⟨rest, rfl⟩ := h
  rfl

theorem readHint_of_head_ne {line : Str} (h : line.head? ≠ some '#') : readHint line = none := by
  cases hread : readHint line with
  | none => rfl
  | some hint => exact absurd (head_of_hintPrefix (hintPrefix_of_readHint hread)) h

theorem head_of_isBlank {line : Str} (h : IsBlank line) : line.head? ≠ some '#' := by
  cases line with
  | nil => simp
  | cons c line =>
      rintro ⟨⟩
      exact absurd (h '#' List.mem_cons_self) (by decide)

theorem readHint_of_isComment {line : Str} (h : IsComment line) : readHint line = none := by
  cases hread : readHint line with
  | none => rfl
  | some hint => exact absurd (hintPrefix_of_readHint hread) h.2

/-- A blank line or a comment says nothing. -/
theorem readNothing {line : Str} (h : IsBlank line ∨ IsComment line) :
    readEntry line = none ∧ readHint line = none := by
  rcases h with h | h
  · exact ⟨readEntry_of_isBlank h, readHint_of_head_ne (head_of_isBlank h)⟩
  · exact ⟨readEntry_of_hash h.1, readHint_of_isComment h⟩

/-- A line that the parser reads is blank, a comment, a hint or an entry. -/
inductive Reads (r : Reading) (line : Str) : Reading → Prop where
  | nothing (h : IsBlank line ∨ IsComment line) : Reads r line r
  | hint (hint : Hint) (h : readHint line = some hint) (hnone : r.hint = none) :
      Reads r line { r with hint := some hint }
  | entry (key value : Str) (h : readEntry line = some (key, value)) (hkey : key ∈ allowed)
      (hnew : key ∉ r.config.map Prod.fst) :
      Reads r line { r with config := r.config ++ [(key, value)] }

theorem reads_of_readLine {r r' : Reading} {line : Str} (h : readLine r line = .ok r') :
    Reads r line r' := by
  unfold readLine at h
  split at h
  · split at h
    · rename_i hint hread hnone
      cases h
      exact .hint hint hread hnone
    · cases h
  · rename_i hbegins
    have hbegins' : ¬ hintPrefix <+: line := fun hp => hbegins (List.isPrefixOf_iff_prefix.mpr hp)
    split at h
    · rename_i hblank
      cases h
      exact .nothing (hblank.imp isBlank_iff.mpr fun hhash => ⟨hhash, hbegins'⟩)
    · split at h
      · rename_i key value hread
        split at h
        · rename_i hkey
          cases h
          exact .entry key value hread hkey.1 hkey.2
        · cases h
      · cases h

/-! ### The lines of a text -/

/-- What an accepted line says. -/
def Readable (line : Str) : Prop :=
  IsBlank line ∨ IsComment line ∨ (∃ hint, readHint line = some hint) ∨
    ∃ key value, IsEntry line key value

theorem Reads.step {r r' : Reading} {line : Str} (h : Reads r line r') :
    r'.config = r.config ++ (readEntry line).toList ∧
      r'.hint.toList = r.hint.toList ++ (readHint line).toList ∧ Readable line ∧
      ((r.config.map Prod.fst).Nodup → (r'.config.map Prod.fst).Nodup) := by
  cases h with
  | nothing h =>
      obtain ⟨hentry, hhint⟩ := readNothing h
      rw [hentry, hhint]
      refine ⟨(List.append_nil _).symm, (List.append_nil _).symm, ?_, id⟩
      exact h.imp_right .inl
  | hint hint h hnone =>
      have hentry := readEntry_of_hash (head_of_hintPrefix (hintPrefix_of_readHint h))
      rw [hentry, h, hnone]
      exact ⟨(List.append_nil _).symm, rfl, .inr (.inr (.inl ⟨hint, h⟩)), id⟩
  | entry key value h hkey hnew =>
      have hhint : readHint line = none := by
        cases hread : readHint line with
        | none => rfl
        | some hint =>
            rw [readEntry_of_hash (head_of_hintPrefix (hintPrefix_of_readHint hread))] at h
            cases h
      rw [h, hhint]
      refine ⟨rfl, (List.append_nil _).symm,
        .inr (.inr (.inr ⟨key, value, isEntry_iff.mpr ⟨hkey, h⟩⟩)), fun hnodup => ?_⟩
      rw [List.map_append, List.nodup_append]
      refine ⟨hnodup, by simp, ?_⟩
      intro k hk l hl heq
      rw [List.map_singleton, List.mem_singleton] at hl
      have hk' : k = key := heq.trans hl
      exact hnew (hk' ▸ hk)

/-- The lines give their entries and hints, in their order. -/
theorem foldlM_readLine {lines : List Str} {r r' : Reading}
    (h : lines.foldlM readLine r = .ok r') :
    r'.config = r.config ++ lines.filterMap readEntry ∧
      r'.hint.toList = r.hint.toList ++ lines.filterMap readHint ∧
      (∀ line ∈ lines, Readable line) ∧
      ((r.config.map Prod.fst).Nodup → (r'.config.map Prod.fst).Nodup) := by
  induction lines generalizing r with
  | nil =>
      cases h
      simp
  | cons line lines ih =>
      rw [List.foldlM_cons, bind_eq_ok] at h
      obtain ⟨r₁, hline, hrest⟩ := h
      obtain ⟨hconfig, hhint, hreadable, hnodup⟩ := (reads_of_readLine hline).step
      obtain ⟨hconfigs, hhints, hreadables, hnodups⟩ := ih hrest
      have hfilter : ∀ {α : Type} (f : Str → Option α),
          (line :: lines).filterMap f = (f line).toList ++ lines.filterMap f := by
        intro α f
        rw [List.filterMap_cons]
        cases f line <;> rfl
      refine ⟨?_, ?_, ?_, fun hr => hnodups (hnodup hr)⟩
      · rw [hconfigs, hconfig, hfilter, List.append_assoc]
      · rw [hhints, hhint, hfilter, List.append_assoc]
      · rw [List.forall_mem_cons]
        exact ⟨hreadable, hreadables⟩

/-- The pieces that the parser reads are those of the lines. -/
theorem foldlM_splitLines (text : Str) (r : Reading) :
    (splitLines text).foldlM readLine r = (linePieces text).foldlM readLine r := by
  rcases splitLines_append_eq text with h | h
  · rw [h]
  · rw [← h, List.foldlM_append]
    cases (splitLines text).foldlM readLine r with
    | error e => rfl
    | ok r' => rfl

end Gjallar.ArchiveConfig

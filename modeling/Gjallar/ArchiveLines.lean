import Gjallar.ArchiveReading

/-!
# When the archive parser reads whole lines

The text is read as it stands exactly when every line is plain: the parser's further pieces of a
blank line or of a comment say nothing either, and an entry is not cut.
-/
namespace Gjallar.ArchiveConfig

open Gjallar.Text Gjallar.TextLines Gjallar.Data Gjallar.Operation Gjallar.Traversals

/-- The configuration has the entries of the text, which has one hint, about the root disk. -/
structure ReadsWhole (text : Str) (config : Dict) (root : Hint) : Prop where
  kinds : ∀ line ∈ archiveLines text,
    IsBlank line ∨ IsComment line ∨ line = root.line ∨ ∃ key value, IsEntry line key value
  oneHint : (archiveLines text).filter hintPrefix.isPrefixOf = [root.line]
  oneEntry : (archiveLines text).Pairwise fun l l' =>
    ∀ key v v', IsEntry l key v → ¬ IsEntry l' key v'
  values : ∀ (key : Str) (v : Value), key ≠ "digest" → (Dict.get config key = some v ↔
    ∃ line ∈ archiveLines text, ∃ value, IsEntry line key value ∧ v = .str value)
  digest : Dict.get config "digest" = some (.str (List.replicate 40 '0'))

/-- A line without other line boundaries; or one that says nothing, as its pieces do; or an entry
with an empty value. -/
def Plain (line : Str) : Prop :=
  (∀ c ∈ line, isLineBoundary c = false) ∨
    ((IsBlank line ∨ IsComment line) ∧
      ∀ piece ∈ pieces isLineBoundary line, IsBlank piece ∨ IsComment piece) ∨
    ∃ key, IsEntry line key []

/-! ### The pieces of a line -/

/-- Characters that do not separate belong to the first piece. -/
theorem pieces_append_of_clear {sep : Char → Bool} {s : Str} (h : ∀ c ∈ s, sep c = false)
    {t w : Str} {ws : List Str} (ht : pieces sep t = w :: ws) :
    pieces sep (s ++ t) = (s ++ w) :: ws := by
  induction s with
  | nil => exact ht
  | cons c s ih =>
      rw [List.forall_mem_cons] at h
      rw [List.cons_append, pieces, if_neg (by simp [h.1]), ih h.2]
      rfl

theorem key_clear {key : Str} (h : key ∈ allowed) :
    ∀ c ∈ key ++ ([':'] : Str), isLineBoundary c = false := by
  intro c hc
  rcases List.mem_append.mp hc with hc | hc
  · have hspace := isKeyChar_not_space ((allowed_keys key h).1 c hc)
    rw [Bool.eq_false_iff]
    intro hboundary
    rw [isSpace_of_isLineBoundary hboundary] at hspace
    cases hspace
  · rw [List.mem_singleton.mp hc]
    decide

theorem readHint_of_readEntry {line key value : Str} (h : readEntry line = some (key, value)) :
    readHint line = none := by
  refine readHint_of_head_ne fun hhash => ?_
  rw [readEntry_of_hash hhash] at h
  cases h

/-- A value that a boundary cuts is not the value of the first piece, unless both are empty. -/
theorem cut_value {blanks value w : Str} {ws : List Str} (hblanks : ∀ c ∈ blanks, isSpace c = true)
    (hvalue : ∀ c ∈ value.head?, isSpace c = false) {c : Char} (hc : c ∈ blanks ++ value)
    (hboundary : isLineBoundary c = true)
    (hpieces : pieces isLineBoundary (blanks ++ value) = w :: ws)
    (heq : w.dropWhile isSpace = value) : value = [] := by
  by_contra hne
  obtain ⟨d, hfind⟩ := Option.isSome_iff_exists.mp
    (List.find?_isSome.mpr ⟨c, hc, hboundary⟩ : ((blanks ++ value).find? isLineBoundary).isSome)
  obtain ⟨hd, u, t, hsplit, hu⟩ := List.find?_eq_some_iff_append.mp hfind
  have hw : w = u := by
    have hcut := pieces_append_cons (fun e he => by simpa using hu e he) hd t
    rw [← hsplit, hpieces] at hcut
    exact (List.cons.inj hcut).1
  have hlong : (w ++ d :: t).dropWhile isSpace = value ++ d :: t := by
    rw [List.dropWhile_append, heq, if_neg (by simpa using hne)]
  rw [hw, ← hsplit, (span_of_run hblanks hvalue).2] at hlong
  have hlength := congrArg List.length hlong
  rw [List.length_append, List.length_cons] at hlength
  omega

/-- The first piece of an entry has its key. -/
theorem first_piece {line key value : Str} (h : IsEntry line key value) :
    ∃ w ws v, pieces isLineBoundary line = w :: ws ∧ readEntry w = some (key, v) ∧
      (value = [] → v = [] ∧ ∀ p ∈ ws, IsBlank p) ∧
      (v = value → value = [] ∨ ∀ c ∈ line, isLineBoundary c = false) := by
  obtain ⟨hkey, blanks, rfl, hblanks, hvalue⟩ := h
  obtain ⟨w, ws, hpieces⟩ := List.exists_cons_of_ne_nil
    (pieces_ne_nil isLineBoundary (blanks ++ value))
  have hline : key ++ ':' :: (blanks ++ value) = (key ++ [':']) ++ (blanks ++ value) := by simp
  have hfirst : readEntry ((key ++ [':']) ++ w) = some (key, w.dropWhile isSpace) := by
    refine readEntry_of_isEntry ⟨hkey, w.takeWhile isSpace, ?_, ?_, ?_⟩
    · rw [List.takeWhile_append_dropWhile, List.append_assoc]
      rfl
    · exact fun c hc => List.mem_takeWhile_imp hc
    · intro c hc
      have hhead := List.head?_dropWhile_not isSpace w
      rw [hc] at hhead
      simpa using hhead
  refine ⟨_, ws, _, ?_, hfirst, ?_, ?_⟩
  · rw [hline]
    exact pieces_append_of_clear (key_clear hkey) hpieces
  · rintro rfl
    rw [List.append_nil] at hpieces
    have hblank : ∀ p ∈ w :: ws, IsBlank p := by
      intro p hp c hc
      rw [← hpieces] at hp
      exact hblanks c (of_mem_pieces hp c hc).1
    rw [List.forall_mem_cons] at hblank
    exact ⟨List.dropWhile_eq_nil_iff.mpr hblank.1, hblank.2⟩
  · intro heq
    by_cases hclear : ∀ c ∈ blanks ++ value, isLineBoundary c = false
    · refine .inr fun c hc => ?_
      rw [hline] at hc
      rcases List.mem_append.mp hc with hc | hc
      · exact key_clear hkey c hc
      · exact hclear c hc
    · push Not at hclear
      obtain ⟨c, hc, hboundary⟩ := hclear
      exact .inl (cut_value hblanks hvalue hc (by simpa using hboundary) hpieces heq)

/-- What the pieces of a line say. -/
def pieceEntries (line : Str) : List (Str × Str) :=
  (pieces isLineBoundary line).filterMap readEntry

def pieceHints (line : Str) : List Hint := (pieces isLineBoundary line).filterMap readHint

theorem filterMap_of_nothing {α : Type} {f : Str → Option α} {ps : List Str}
    (h : ∀ p ∈ ps, f p = none) : ps.filterMap f = [] := List.filterMap_eq_nil_iff.mpr h

/-- The pieces of a plain line say what the line says. -/
theorem Plain.pieces_say {line : Str} (h : Plain line) :
    pieceEntries line = (readEntry line).toList ∧ pieceHints line = (readHint line).toList := by
  unfold pieceEntries pieceHints
  rcases h with hclear | ⟨hline, hpieces⟩ | ⟨key, hentry⟩
  · have hsingle : ∀ {α : Type} (f : Str → Option α), [line].filterMap f = (f line).toList := by
      intro α f
      rw [List.filterMap_cons]
      cases f line <;> rfl
    rw [pieces_of_clear hclear]
    exact ⟨hsingle readEntry, hsingle readHint⟩
  · obtain ⟨he, hh⟩ := readNothing hline
    rw [he, hh]
    exact ⟨filterMap_of_nothing fun p hp => (readNothing (hpieces p hp)).1,
      filterMap_of_nothing fun p hp => (readNothing (hpieces p hp)).2⟩
  · obtain ⟨w, ws, v, hpieces, hfirst, hempty, -⟩ := first_piece hentry
    obtain ⟨rfl, hblank⟩ := hempty rfl
    have hline := readEntry_of_isEntry hentry
    rw [hpieces, List.filterMap_cons, List.filterMap_cons, hfirst, readHint_of_readEntry hfirst,
      hline, readHint_of_readEntry hline]
    have hentries : ws.filterMap readEntry = [] :=
      filterMap_of_nothing fun p hp => (readNothing (.inl (hblank p hp))).1
    have hhints : ws.filterMap readHint = [] :=
      filterMap_of_nothing fun p hp => (readNothing (.inl (hblank p hp))).2
    rw [hentries, hhints]
    exact ⟨rfl, rfl⟩

/-! ### A text that was read -/

/-- What is known of the reading of a text whose hint is about a root disk. -/
structure WasRead (text : Str) (r : Reading) (root : Hint) : Prop where
  entries : r.config = (archiveLines text).flatMap pieceEntries
  hints : (archiveLines text).flatMap pieceHints = [root]
  readable : ∀ line ∈ archiveLines text, ∀ p ∈ pieces isLineBoundary line, Readable p
  nodup : (r.config.map Prod.fst).Nodup

theorem wasRead_of_ok {text : Str} {r : Reading} {root : Hint}
    (h : (splitLines text).foldlM readLine {} = .ok r) (hroot : r.hint = some root) :
    WasRead text r root := by
  rw [foldlM_splitLines] at h
  obtain ⟨hconfig, hhint, hreadable, hnodup⟩ := foldlM_readLine h
  have hflat : linePieces text = (archiveLines text).flatMap (pieces isLineBoundary) := rfl
  rw [hflat, List.filterMap_flatMap] at hconfig hhint
  rw [hroot] at hhint
  refine ⟨hconfig, hhint.symm, fun line hline p hp => ?_, hnodup List.nodup_nil⟩
  exact hreadable p (List.mem_flatMap.mpr ⟨line, hline, hp⟩)

theorem get_entries {entries : List (Str × Str)} (hnodup : (entries.map Prod.fst).Nodup)
    (key : Str) (v : Value) : Dict.get (entries.map fun kv => (kv.1, .str kv.2)) key = some v ↔
      ∃ value, (key, value) ∈ entries ∧ v = .str value := by
  induction entries with
  | nil => simp
  | cons kv entries ih =>
      obtain ⟨k, value⟩ := kv
      rw [List.map_cons, List.nodup_cons] at hnodup
      rw [List.map_cons, Dict.get_cons]
      by_cases hkey : key = k
      · subst hkey
        rw [if_pos rfl]
        constructor
        · rintro ⟨⟩
          exact ⟨value, List.mem_cons_self, rfl⟩
        · rintro ⟨value', hmem, rfl⟩
          rcases List.mem_cons.mp hmem with heq | hmem
          · cases heq
            rfl
          · exact absurd (List.mem_map_of_mem hmem) hnodup.1
      · rw [if_neg hkey, ih hnodup.2]
        refine exists_congr fun value' => and_congr_left fun _ => ?_
        rw [List.mem_cons, or_iff_right]
        rintro ⟨⟩
        exact hkey rfl

theorem get_archiveConfig {r : Reading} (hnodup : (r.config.map Prod.fst).Nodup) {key : Str}
    (hkey : key ≠ "digest") (v : Value) : Dict.get r.archiveConfig key = some v ↔
      ∃ value, (key, value) ∈ r.config ∧ v = .str value := by
  have hplaceholder : Dict.get [("digest", .str (List.replicate 40 '0'))] key = none := by
    rw [Dict.get_cons, if_neg hkey]
    rfl
  rw [Reading.archiveConfig, Dict.get_append, hplaceholder, Option.or_none,
    get_entries hnodup]

namespace WasRead

variable {text : Str} {r : Reading} {root : Hint}

/-- The hint was read on a piece that is the line of the hint. -/
theorem root_line (h : WasRead text r root) : readHint root.line = some root ∧
    ∀ c ∈ root.line, isLineBoundary c = false := by
  have hmem : root ∈ (archiveLines text).flatMap pieceHints := by
    rw [h.hints]
    exact List.mem_cons_self
  obtain ⟨line, -, hline⟩ := List.mem_flatMap.mp hmem
  obtain ⟨p, hp, hread⟩ := List.mem_filterMap.mp hline
  rw [← readHint_eq_some hread]
  exact ⟨hread, fun c hc => (of_mem_pieces hp c hc).2⟩

theorem allowed_of_mem (h : WasRead text r root) {key value : Str}
    (hmem : (key, value) ∈ r.config) : key ∈ allowed := by
  rw [h.entries] at hmem
  obtain ⟨line, hline, hentry⟩ := List.mem_flatMap.mp hmem
  obtain ⟨p, hp, hread⟩ := List.mem_filterMap.mp hentry
  rcases h.readable line hline p hp with hblank | hcomment | ⟨hint, hhint⟩ | ⟨k, v, hkv⟩
  · rw [(readNothing (.inl hblank)).1] at hread
    cases hread
  · rw [(readNothing (.inr hcomment)).1] at hread
    cases hread
  · rw [readHint_of_readEntry hread] at hhint
    cases hhint
  · rw [readEntry_of_isEntry hkv] at hread
    cases hread
    exact hkv.1

/-- A key is read on the pieces of one line only. -/
theorem unique_line (h : WasRead text r root) {line line' : Str}
    (hline : line ∈ archiveLines text) (hline' : line' ∈ archiveLines text) {key v v' : Str}
    (hentry : (key, v) ∈ pieceEntries line) (hentry' : (key, v') ∈ pieceEntries line') :
    line = line' := by
  have hkeys : ((archiveLines text).flatMap fun l => (pieceEntries l).map Prod.fst).Nodup := by
    rw [← List.map_flatMap, ← h.entries]
    exact h.nodup
  exact eq_of_mem_of_nodup_flatMap hkeys hline hline' (List.mem_map.mpr ⟨_, hentry, rfl⟩)
    (List.mem_map.mpr ⟨_, hentry', rfl⟩)

theorem unique_hint_line (h : WasRead text r root) {line line' : Str}
    (hline : line ∈ archiveLines text) (hline' : line' ∈ archiveLines text) {hint hint' : Hint}
    (hread : hint ∈ pieceHints line) (hread' : hint' ∈ pieceHints line') : line = line' := by
  have hnodup : ((archiveLines text).flatMap pieceHints).Nodup := by
    rw [h.hints]
    exact List.nodup_singleton root
  have hroot : ∀ {l : Str} {a : Hint}, l ∈ archiveLines text → a ∈ pieceHints l → a = root := by
    intro l a hl ha
    have hmem := List.mem_flatMap.mpr ⟨l, hl, ha⟩
    rw [h.hints] at hmem
    exact List.mem_singleton.mp hmem
  rw [hroot hline hread] at hread
  rw [hroot hline' hread'] at hread'
  exact eq_of_mem_of_nodup_flatMap hnodup hline hline' hread hread'

/-- A text whose lines are read as they stand has plain lines only. -/
theorem plain_of_readsWhole (h : WasRead text r root)
    (hwhole : ReadsWhole text r.archiveConfig root) : ∀ line ∈ archiveLines text, Plain line := by
  intro line hline
  have hvalue : ∀ {key value : Str}, (key, value) ∈ r.config →
      ∃ l ∈ archiveLines text, IsEntry l key value := by
    intro key value hmem
    have hkey : key ≠ "digest" := by
      rintro rfl
      exact absurd (h.allowed_of_mem hmem) (by decide)
    obtain ⟨l, hl, v, hentry, heq⟩ := (hwhole.values key _ hkey).mp
      ((get_archiveConfig h.nodup hkey _).mpr ⟨value, hmem, rfl⟩)
    cases heq
    exact ⟨l, hl, hentry⟩
  have hfirst : ∀ {l key value : Str}, IsEntry l key value → ∃ v, (key, v) ∈ pieceEntries l := by
    intro l key value hentry
    obtain ⟨w, ws, v, hpieces, hread, -⟩ := first_piece hentry
    refine ⟨v, List.mem_filterMap.mpr ⟨w, ?_, hread⟩⟩
    rw [hpieces]
    exact List.mem_cons_self
  rcases hwhole.kinds line hline with hblank | hcomment | hroot | ⟨key, value, hentry⟩
  · refine .inr (.inl ⟨.inl hblank, fun p hp => .inl fun c hc => ?_⟩)
    exact hblank c (of_mem_pieces hp c hc).1
  · refine .inr (.inl ⟨.inr hcomment, fun p hp => ?_⟩)
    rcases h.readable line hline p hp with hb | hc | ⟨hint, hhint⟩ | ⟨k, v, hkv⟩
    · exact .inl hb
    · exact .inr hc
    -- the hint of the text stands on a line of its own
    · have hmem : root.line ∈ (archiveLines text).filter hintPrefix.isPrefixOf := by
        rw [hwhole.oneHint]
        exact List.mem_cons_self
      obtain ⟨hmem, hbegins⟩ := List.mem_filter.mp hmem
      obtain ⟨hread, hclear⟩ := h.root_line
      have hroot : root ∈ pieceHints root.line := by
        rw [pieceHints, pieces_of_clear hclear]
        exact List.mem_filterMap.mpr ⟨_, List.mem_cons_self, hread⟩
      have heq := h.unique_hint_line hline hmem (List.mem_filterMap.mpr ⟨p, hp, hhint⟩) hroot
      rw [heq] at hcomment
      exact absurd (List.isPrefixOf_iff_prefix.mp hbegins) hcomment.2
    -- the entry of the configuration stands on a line of its own
    · have hread : (k, v) ∈ pieceEntries line :=
        List.mem_filterMap.mpr ⟨p, hp, readEntry_of_isEntry hkv⟩
      obtain ⟨l, hl, hl'⟩ := hvalue (by
        rw [h.entries]
        exact List.mem_flatMap.mpr ⟨line, hline, hread⟩)
      obtain ⟨v', hv'⟩ := hfirst hl'
      have hnone := (readNothing (.inr hcomment)).1
      rw [h.unique_line hline hl hread hv', readEntry_of_isEntry hl'] at hnone
      cases hnone
  · rw [hroot]
    exact .inl h.root_line.2
  · obtain ⟨w, ws, v, hpieces, hread, -, hcut⟩ := first_piece hentry
    have hmem : (key, v) ∈ pieceEntries line := by
      refine List.mem_filterMap.mpr ⟨w, ?_, hread⟩
      rw [hpieces]
      exact List.mem_cons_self
    obtain ⟨l, hl, hl'⟩ := hvalue (by
      rw [h.entries]
      exact List.mem_flatMap.mpr ⟨line, hline, hmem⟩)
    obtain ⟨v', hv'⟩ := hfirst hl'
    have heq := readEntry_of_isEntry hl'
    rw [← h.unique_line hline hl hmem hv', readEntry_of_isEntry hentry] at heq
    cases heq
    rcases hcut rfl with rfl | hclear
    · exact .inr (.inr ⟨key, hentry⟩)
    · exact .inl hclear

/-- Plain lines are read as they stand. -/
theorem readsWhole_of_plain (h : WasRead text r root)
    (hplain : ∀ line ∈ archiveLines text, Plain line) :
    ReadsWhole text r.archiveConfig root := by
  have hkinds : ∀ line ∈ archiveLines text,
      IsBlank line ∨ IsComment line ∨ line = root.line ∨ ∃ key value, IsEntry line key value := by
    intro line hline
    rcases hplain line hline with hclear | ⟨hnothing, -⟩ | ⟨key, hentry⟩
    · have hpieces := pieces_of_clear hclear
      have hmem : line ∈ pieces isLineBoundary line := by
        rw [hpieces]
        exact List.mem_cons_self
      rcases h.readable line hline line hmem with hb | hc | ⟨hint, hhint⟩ | hentry
      · exact .inl hb
      · exact .inr (.inl hc)
      · have hroot : hint ∈ (archiveLines text).flatMap pieceHints :=
          List.mem_flatMap.mpr ⟨line, hline, List.mem_filterMap.mpr ⟨line, hmem, hhint⟩⟩
        rw [h.hints, List.mem_singleton] at hroot
        rw [readHint_eq_some hhint, hroot]
        exact .inr (.inr (.inl rfl))
      · exact .inr (.inr (.inr hentry))
    · exact hnothing.imp_right .inl
    · exact .inr (.inr (.inr ⟨key, [], hentry⟩))
  have hentries : r.config = (archiveLines text).filterMap readEntry := by
    rw [h.entries, List.filterMap_eq_flatMap_toList]
    exact List.flatMap_congr fun line hline => (hplain line hline).pieces_say.1
  have hhints : (archiveLines text).filterMap readHint = [root] := by
    rw [← h.hints, List.filterMap_eq_flatMap_toList]
    exact List.flatMap_congr fun line hline => (hplain line hline).pieces_say.2.symm
  refine ⟨hkinds, ?_, ?_, ?_, ?_⟩
  · have hbegins : ∀ line ∈ archiveLines text, hintPrefix.isPrefixOf line = true →
        line = root.line := by
      intro line hline hp
      have hhash := head_of_hintPrefix (List.isPrefixOf_iff_prefix.mp hp)
      rcases hkinds line hline with hb | hc | hroot | ⟨key, value, hentry⟩
      · exact absurd hhash (head_of_isBlank hb)
      · exact absurd (List.isPrefixOf_iff_prefix.mp hp) hc.2
      · exact hroot
      · have hnone := readEntry_of_hash hhash
        rw [readEntry_of_isEntry hentry] at hnone
        cases hnone
    have hmap := congrArg (List.map Hint.line) hhints
    rw [List.map_singleton, List.map_filterMap] at hmap
    rw [← hmap, ← List.filterMap_eq_filter]
    refine List.filterMap_congr fun line hline => ?_
    rcases hp : hintPrefix.isPrefixOf line with _ | _
    · cases hread : readHint line with
      | none => simp [Option.guard, hp]
      | some hint =>
          rw [List.isPrefixOf_iff_prefix.mpr (hintPrefix_of_readHint hread)] at hp
          cases hp
    · obtain rfl := hbegins line hline hp
      simp [Option.guard, hp, h.root_line.1]
  · have hnodup := h.nodup
    rw [hentries, List.map_filterMap, List.nodup_iff_pairwise_ne, List.pairwise_filterMap] at hnodup
    refine hnodup.imp fun {l l'} hne key v v' hl hl' => ?_
    have hkey : (readEntry l).map Prod.fst = some key := by rw [readEntry_of_isEntry hl]; rfl
    have hkey' : (readEntry l').map Prod.fst = some key := by rw [readEntry_of_isEntry hl']; rfl
    exact hne key hkey key hkey' rfl
  · intro key v hkey
    rw [get_archiveConfig h.nodup hkey, hentries]
    constructor
    · rintro ⟨value, hmem, rfl⟩
      obtain ⟨line, hline, hread⟩ := List.mem_filterMap.mp hmem
      have hallowed := h.allowed_of_mem (hentries ▸ hmem)
      exact ⟨line, hline, value, isEntry_iff.mpr ⟨hallowed, hread⟩, rfl⟩
    · rintro ⟨line, hline, value, hentry, rfl⟩
      exact ⟨value, List.mem_filterMap.mpr ⟨line, hline, readEntry_of_isEntry hentry⟩, rfl⟩
  · have hdigest : Dict.get (r.config.map fun kv => (kv.1, .str kv.2)) "digest" = none := by
      cases hget : Dict.get (r.config.map fun kv => (kv.1, .str kv.2)) "digest" with
      | none => rfl
      | some v =>
          obtain ⟨value, hmem, -⟩ := (get_entries h.nodup _ v).mp hget
          exact absurd (h.allowed_of_mem hmem) (by decide)
    rw [Reading.archiveConfig, Dict.get_append, hdigest]
    rfl

end WasRead

/-! ### The parser -/

/-- A text is refused, or its lines are read as they stand; nothing else is raised. -/
def ParsesExactly (rt : Runtime) (raw : List CodePoint) (vmid : ℕ) : Prop :=
  match parseArchiveConfig rt raw vmid with
  | .ok (config, m) => ∃ text, encode raw = .ok text ∧
      ReadsWhole text config ⟨m.root.storageId, m.root.format⟩
  | .error (.backup _) => True
  | .error _ => False

/-- The text has no surrogates, the size of its root disk, when it is reached, has no more digits
than the interpreter converts, and the lines of an accepted text are plain. -/
structure IsPlain (rt : Runtime) (raw : List CodePoint) (vmid : ℕ) : Prop where
  encodable : ∀ c ∈ raw, c.isLeft = true
  short : ∀ digits, ReachesSize rt raw vmid digits → digits.length ≤ 4300
  plain : ∀ text result, encode raw = .ok text → parseArchiveConfig rt raw vmid = .ok result →
    ∀ line ∈ archiveLines text, Plain line

theorem encode_eq_ok_iff (raw : List CodePoint) :
    (∃ text, encode raw = .ok text) ↔ ∀ c ∈ raw, c.isLeft = true := by
  constructor
  · rintro ⟨text, htext⟩ c hc
    have hmap := mapM_eq_some.mp ((orRaise_eq_ok _ _ _).mp htext)
    obtain ⟨d, -, hd⟩ := exists_right_of_mem hmap hc
    exact Sum.isSome_getLeft?_iff_isLeft.mp (Option.isSome_iff_exists.mpr ⟨d, hd⟩)
  · intro h
    have hsome : (raw.mapM Sum.getLeft?).isSome = true :=
      mapM_isSome fun c hc => Sum.isSome_getLeft?_iff_isLeft.mpr (h c hc)
    obtain ⟨text, htext⟩ := Option.isSome_iff_exists.mp hsome
    exact ⟨text, (orRaise_eq_ok _ _ _).mpr htext⟩

theorem wasRead_of_parse {rt : Runtime} {raw : List CodePoint} {vmid : ℕ} {text : Str}
    {config : Dict} {m : Manifest} (htext : encode raw = .ok text)
    (h : parseArchiveConfig rt raw vmid = .ok (config, m)) :
    ∃ r : Reading, config = r.archiveConfig ∧
      WasRead text r ⟨m.root.storageId, m.root.format⟩ := by
  rw [parseArchiveConfig, bind_eq_ok] at h
  obtain ⟨r, hread, h⟩ := h
  simp only [bind_eq_ok, raiseIf_eq_ok, pure_eq_ok, not_not] at h
  obtain ⟨identity, -, -, hroot, nic, -, text', -, result, hresult, heq⟩ := h
  cases heq
  simp only [readArchive, bind_eq_ok, raiseIf_eq_ok] at hread
  obtain ⟨-, -, text'', htext'', -, -, hlines⟩ := hread
  rw [htext] at htext''
  cases htext''
  refine ⟨r, rfl, wasRead_of_ok hlines ?_⟩
  rw [hroot]
  rw [manifest, bind_eq_ok] at hresult
  obtain ⟨size, -, hresult⟩ := hresult
  simp only [bind_eq_ok, pure_eq_ok] at hresult
  obtain ⟨n, -, uuid, -, hardware, -, heq⟩ := hresult
  cases heq
  rfl

/-- The parser refuses a text or reads its lines as they stand exactly when it meets no
surrogate, no size beyond the interpreter's limit and no line of an accepted text that is not
plain. -/
theorem parse_archive_config_iff (rt : Runtime) (raw : List CodePoint) (vmid : ℕ) :
    ParsesExactly rt raw vmid ↔ IsPlain rt raw vmid := by
  constructor
  · intro h
    have hencodable : ∃ text, encode raw = .ok text := by
      cases htext : encode raw with
      | ok text => exact ⟨text, rfl⟩
      | error e =>
          rw [ParsesExactly, parse_of_unencodable rt vmid htext] at h
          exact h.elim
    refine ⟨(encode_eq_ok_iff raw).mp hencodable, fun digits hreach => ?_,
      fun text result htext hresult => ?_⟩
    · by_contra hlong
      rw [ParsesExactly, parse_of_long hreach (not_le.mp hlong)] at h
      exact h
    · obtain ⟨config, m⟩ := result
      rw [ParsesExactly, hresult] at h
      obtain ⟨text', htext', hwhole⟩ := h
      rw [htext] at htext'
      cases htext'
      obtain ⟨r, rfl, hread⟩ := wasRead_of_parse htext hresult
      exact hread.plain_of_readsWhole hwhole
  · rintro ⟨hencodable, hshort, hplain⟩
    obtain ⟨text, htext⟩ := (encode_eq_ok_iff raw).mpr hencodable
    unfold ParsesExactly
    split
    · rename_i config m hresult
      obtain ⟨r, rfl, hread⟩ := wasRead_of_parse htext hresult
      exact ⟨text, htext, hread.readsWhole_of_plain (hplain text _ htext hresult)⟩
    · trivial
    · rename_i e hbackup herror
      obtain ⟨b, rfl⟩ := refuses_parse htext hshort e herror
      exact hbackup b rfl

theorem encode_map_inl (s : Str) : encode (s.map .inl) = .ok s := by
  have hmap : (s.map Sum.inl).mapM (Sum.getLeft? : CodePoint → Option Char) = some s := by
    rw [mapM_eq_some, List.forall₂_map_left_iff]
    exact List.forall₂_same.mpr fun c _ => rfl
  rw [encode, hmap]
  rfl

/-- A setting that no line of the text has. -/
theorem not_parsesExactly_of_get {rt : Runtime} {text : Str} {vmid : ℕ} (key value : Str)
    (hget : (parseArchiveConfig rt (text.map .inl) vmid).toOption.map
      (fun result => Dict.get result.1 key) = some (some (.str value)))
    (hkey : key ≠ "digest")
    (hnone : ∀ line ∈ archiveLines text, (readEntry line).map Prod.fst ≠ some key) :
    ¬ ParsesExactly rt (text.map .inl) vmid := by
  intro h
  unfold ParsesExactly at h
  split at h
  · rename_i config m hresult
    rw [hresult] at hget
    obtain ⟨text', htext, hwhole⟩ := h
    obtain rfl := Except.ok.inj ((encode_map_inl text).symm.trans htext)
    obtain ⟨line, hline, v, hentry, -⟩ :=
      (hwhole.values key (.str value) hkey).mp (Option.some.inj hget)
    refine hnone line hline ?_
    rw [readEntry_of_isEntry hentry]
    rfl
  · rename_i b hresult
    rw [hresult] at hget
    cases hget
  · exact h

/-- A configuration that is accepted, with a vertical tab in a comment. -/
def hiddenLine : Str :=
  join "\n" ["name: a",
    ("scsi0: n:100/" : Str) ++ ("vm-100-disk-0.raw" : Str) ++ (",size=1G" : Str),
    ("ide2: n:100/vm-" : Str) ++ ("100-cloudinit.raw" : Str) ++ (",media=cdrom" : Str),
    ("net0: virtio=" : Str) ++ ("02:00:00:00:00:01" : Str) ++ (",bridge=b" : Str),
    hintPrefix ++ ("scsi0:drive-scsi0:" : Str) ++ ("n:raw:" : Str), "#c\x0bcpu: host"]

/-- A line hidden in a comment is read as a setting, and a lone surrogate is no `BackupError`. -/
theorem hidden_line_read :
    let hex : Hex := ⟨[], by simp⟩
    let rt : Runtime := ⟨fun _ => hex, fun _ => hex, fun _ => [], fun _ => []⟩
    ¬ ParsesExactly rt (hiddenLine.map .inl) 100 ∧ ¬ ParsesExactly rt [.inr 0] 100 :=
  ⟨not_parsesExactly_of_get "cpu" "host" (by decide +kernel) (by decide) (by decide +kernel), id⟩

end Gjallar.ArchiveConfig

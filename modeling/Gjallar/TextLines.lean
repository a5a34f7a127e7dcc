import Mathlib.Algebra.Order.BigOperators.Group.List
import Mathlib.Algebra.Order.Ring.Nat
import Mathlib.Data.List.DropRight
import Mathlib.Data.List.TakeWhile
import Gjallar.Text

/-!
# Words and lines of a text

`str.split` and `str.splitlines` of the standard library, and the lines of a file that are ended
by newlines. The two notions of a line agree on texts without other line boundaries.
-/
namespace Gjallar.TextLines

open Gjallar.Text

/-- Put a character in front of the first of some pieces. -/
def addFront (c : Char) : List Str → List Str
  | [] => [[c]]
  | w :: ws => (c :: w) :: ws

/-- The maximal pieces of a text without characters that separate, with empty pieces. -/
def pieces (sep : Char → Bool) : Str → List Str
  | [] => [[]]
  | c :: s => if sep c then [] :: pieces sep s else addFront c (pieces sep s)

/-- `s.split()`. -/
def splitWords (s : Str) : List Str := (pieces isSpace s).filter fun w => !w.isEmpty

/-- The characters at which `str.splitlines` ends a line. -/
def isLineBoundary (c : Char) : Bool :=
  let n := c.toNat
  (10 ≤ n && n ≤ 13) || (0x1c ≤ n && n ≤ 0x1e) || n == 0x85 || n == 0x2028 || n == 0x2029

/-- `s.splitlines()`. -/
def splitLines : Str → List Str
  | [] => []
  | '\r' :: '\n' :: s => [] :: splitLines s
  | c :: s => if isLineBoundary c then [] :: splitLines s else addFront c (splitLines s)

/-- The lines of a file: each is ended by a newline, the last one perhaps by the end of the file. -/
def newlineLines : Str → List Str
  | [] => []
  | c :: s => if c = '\n' then [] :: newlineLines s else addFront c (newlineLines s)

theorem isLineBoundary_newline : isLineBoundary '\n' = true := by decide

/-- On a text whose only line boundaries are newlines the two notions of a line agree. -/
theorem splitLines_eq_newlineLines {s : Str} (h : ∀ c ∈ s, isLineBoundary c = true → c = '\n') :
    splitLines s = newlineLines s := by
  induction s using splitLines.induct with
  | case1 => rfl
  | case2 s ih =>
      have hreturn : '\r' = '\n' := h '\r' List.mem_cons_self (by decide)
      cases hreturn
  | case3 c s hcr hboundary ih =>
      have hc := h c List.mem_cons_self hboundary
      rw [splitLines, if_pos hboundary, ih fun d hd => h d (List.mem_cons_of_mem c hd),
        newlineLines, if_pos hc]
      exact hcr
  | case4 c s hcr hboundary ih =>
      have hc : c ≠ '\n' := by
        rintro rfl
        exact hboundary isLineBoundary_newline
      rw [splitLines, if_neg hboundary, ih fun d hd => h d (List.mem_cons_of_mem c hd),
        newlineLines, if_neg hc]
      exact hcr

/-! ### Words of a joined text -/

theorem addFront_ne_nil (c : Char) (ws : List Str) : addFront c ws ≠ [] := by
  cases ws <;> simp [addFront]

theorem pieces_ne_nil (sep : Char → Bool) (s : Str) : pieces sep s ≠ [] := by
  cases s with
  | nil => simp [pieces]
  | cons c s =>
      rw [pieces]
      split
      · simp
      · exact addFront_ne_nil c _

/-- A text without separators is one piece. -/
theorem pieces_of_clear {sep : Char → Bool} {w : Str} (h : ∀ c ∈ w, sep c = false) :
    pieces sep w = [w] := by
  induction w with
  | nil => rfl
  | cons c w ih =>
      rw [List.forall_mem_cons] at h
      rw [pieces, if_neg (by simp [h.1]), ih h.2]
      rfl

/-- The first piece ends at the first separator. -/
theorem pieces_append_cons {sep : Char → Bool} {w : Str} (h : ∀ c ∈ w, sep c = false) {d : Char}
    (hd : sep d = true) (s : Str) : pieces sep (w ++ d :: s) = w :: pieces sep s := by
  induction w with
  | nil => simp [pieces, hd]
  | cons c w ih =>
      rw [List.forall_mem_cons] at h
      rw [List.cons_append, pieces, if_neg (by simp [h.1]), ih h.2]
      rfl

/-- The words of a text of words. -/
theorem splitWords_join {ws : List Str} (hne : ∀ w ∈ ws, w ≠ [])
    (hclear : ∀ w ∈ ws, ∀ c ∈ w, isSpace c = false) : splitWords (join " " ws) = ws := by
  induction ws with
  | nil => rfl
  | cons w ws ih =>
      rw [List.forall_mem_cons] at hne hclear
      have hword : (!w.isEmpty) = true := by simp [hne.1]
      cases ws with
      | nil => rw [join, splitWords, pieces_of_clear hclear.1, List.filter_cons, if_pos hword]; rfl
      | cons v ws =>
          have hrest := ih hne.2 hclear.2
          rw [splitWords] at hrest
          rw [join, splitWords, List.append_assoc]
          change List.filter _ (pieces isSpace (w ++ ' ' :: join " " (v :: ws))) = _
          rw [pieces_append_cons hclear.1 (by decide), List.filter_cons, if_pos hword, hrest]

theorem pieces_eq_nil_iff (sep : Char → Bool) (s : Str) :
    (∀ w ∈ pieces sep s, w = []) ↔ ∀ c ∈ s, sep c = true := by
  induction s with
  | nil => simp [pieces]
  | cons c s ih =>
      rw [pieces, List.forall_mem_cons]
      split
      · rename_i hc
        rw [List.forall_mem_cons, ih]
        simp [hc]
      · rename_i hc
        refine iff_of_false ?_ fun h => hc h.1
        cases pieces sep s <;> simp [addFront]

/-- A text without words is white space. -/
theorem splitWords_eq_nil_iff (s : Str) : splitWords s = [] ↔ ∀ c ∈ s, isSpace c = true := by
  rw [← pieces_eq_nil_iff, splitWords, List.filter_eq_nil_iff]
  simp

theorem strip_eq_nil_iff (s : Str) : strip s = [] ↔ ∀ c ∈ s, isSpace c = true := by
  have hdrop : s.dropWhile isSpace = [] ↔ ∀ c ∈ s, isSpace c = true := List.dropWhile_eq_nil_iff
  rw [strip, List.reverse_eq_nil_iff, List.dropWhile_eq_nil_iff, ← hdrop]
  constructor
  · intro h
    by_contra hne
    have hhead := List.head_dropWhile_not isSpace hne
    rw [h _ (List.mem_reverse.mpr (List.head_mem hne))] at hhead
    cases hhead
  · intro h
    simp [h]

/-- The characters of some words, each with one separator. -/
def totalLength (ws : List Str) : ℕ := (ws.map fun w => w.length + 1).sum

@[simp] theorem totalLength_cons (w : Str) (ws : List Str) :
    totalLength (w :: ws) = w.length + 1 + totalLength ws := by simp [totalLength]

theorem totalLength_addFront (c : Char) {ws : List Str} (h : ws ≠ []) :
    totalLength (addFront c ws) = totalLength ws + 1 := by
  cases ws with
  | nil => exact absurd rfl h
  | cons w ws =>
      simp only [addFront, totalLength_cons, List.length_cons]
      omega

theorem totalLength_pieces (sep : Char → Bool) (s : Str) :
    totalLength (pieces sep s) = s.length + 1 := by
  induction s with
  | nil => rfl
  | cons c s ih =>
      rw [pieces]
      split
      · simp only [totalLength_cons, List.length_nil, List.length_cons, ih]
        omega
      · rw [totalLength_addFront c (pieces_ne_nil sep s), ih, List.length_cons]

theorem totalLength_splitWords_le (s : Str) : totalLength (splitWords s) ≤ s.length + 1 := by
  rw [← totalLength_pieces isSpace s]
  exact List.Sublist.sum_le_sum (List.filter_sublist.map _) (by simp)

theorem length_join_add_one (sep : Char) {ws : List Str} (h : ws ≠ []) :
    (join [sep] ws).length + 1 = totalLength ws := by
  induction ws with
  | nil => exact absurd rfl h
  | cons w ws ih =>
      cases ws with
      | nil => simp [join, totalLength]
      | cons v ws =>
          rw [join, totalLength_cons, ← ih (by simp)]
          simp only [List.length_append, List.length_singleton]
          omega

/-! ### Pieces at one character -/

theorem splitAll_of_notMem {sep : Char} {s : Str} (h : sep ∉ s) : splitAll sep s = [s] := by
  induction s with
  | nil => rfl
  | cons c s ih =>
      rw [List.mem_cons, not_or] at h
      rw [splitAll, ih h.2]
      exact if_neg fun heq => h.1 heq.symm

theorem splitAll_append_cons {sep : Char} {s : Str} (h : sep ∉ s) (t : Str) :
    splitAll sep (s ++ sep :: t) = s :: splitAll sep t := by
  induction s with
  | nil =>
      rw [List.nil_append, splitAll]
      cases hsplit : splitAll sep t with
      | nil => exact absurd hsplit (splitAll_ne_nil sep t)
      | cons w ws => exact if_pos rfl
  | cons c s ih =>
      rw [List.mem_cons, not_or] at h
      rw [List.cons_append, splitAll, ih h.2]
      exact if_neg fun heq => h.1 heq.symm

/-- Pieces without the separator, joined by it, are split again. -/
theorem splitAll_join {sep : Char} {ws : List Str} (hne : ws ≠ []) (h : ∀ w ∈ ws, sep ∉ w) :
    splitAll sep (join [sep] ws) = ws := by
  induction ws with
  | nil => exact absurd rfl hne
  | cons w ws ih =>
      rw [List.forall_mem_cons] at h
      cases ws with
      | nil => exact splitAll_of_notMem h.1
      | cons v ws =>
          rw [join, List.append_assoc]
          change splitAll sep (w ++ sep :: join [sep] (v :: ws)) = _
          rw [splitAll_append_cons h.1, ih (by simp) h.2]

theorem notMem_of_mem_splitAll {sep : Char} {s w : Str} (h : w ∈ splitAll sep s) : sep ∉ w := by
  induction s generalizing w with
  | nil =>
      rw [splitAll, List.mem_singleton] at h
      simp [h]
  | cons c s ih =>
      rw [splitAll] at h
      cases hs : splitAll sep s with
      | nil => exact absurd hs (splitAll_ne_nil sep s)
      | cons v vs =>
          rw [hs] at h ih
          dsimp only at h
          split at h
          · rcases List.mem_cons.mp h with rfl | h
            · simp
            · exact ih h
          · rename_i hc
            rcases List.mem_cons.mp h with rfl | h
            · rw [List.mem_cons, not_or]
              exact ⟨fun heq => hc heq.symm, ih List.mem_cons_self⟩
            · exact ih (List.mem_cons_of_mem v h)

theorem splitOnce_append {sep : Char} {s : Str} (h : sep ∉ s) (t : Str) :
    splitOnce sep (s ++ sep :: t) = (s, some t) := by
  induction s with
  | nil => simp [splitOnce]
  | cons c s ih =>
      rw [List.mem_cons, not_or] at h
      rw [List.cons_append, splitOnce, if_neg fun heq => h.1 heq.symm, ih h.2]

theorem splitOnce_of_notMem {sep : Char} {s : Str} (h : sep ∉ s) : splitOnce sep s = (s, none) := by
  induction s with
  | nil => rfl
  | cons c s ih =>
      rw [List.mem_cons, not_or] at h
      rw [splitOnce, if_neg fun heq => h.1 heq.symm, ih h.2]

theorem eq_of_splitOnce {sep : Char} {s k v : Str} (h : splitOnce sep s = (k, some v)) :
    s = k ++ sep :: v ∧ sep ∉ k := by
  induction s generalizing k with
  | nil => cases h
  | cons c s ih =>
      rw [splitOnce] at h
      split at h
      · rename_i hc
        cases h
        rw [hc]
        exact ⟨rfl, by simp⟩
      · rename_i hc
        rw [Prod.mk.injEq] at h
        obtain ⟨rfl, hsecond⟩ := h
        obtain ⟨heq, hnot⟩ := ih (Prod.ext rfl hsecond)
        refine ⟨congrArg (c :: ·) heq, ?_⟩
        rw [List.mem_cons, not_or]
        exact ⟨fun heq => hc heq.symm, hnot⟩

/-! ### Runs of characters -/

/-- A run is read up to the first character that does not belong to it. -/
theorem span_of_run {p : Char → Bool} {s t : Str} (hs : ∀ c ∈ s, p c = true)
    (ht : ∀ c ∈ t.head?, p c = false) :
    (s ++ t).takeWhile p = s ∧ (s ++ t).dropWhile p = t := by
  rw [List.takeWhile_append_of_pos hs, List.dropWhile_append_of_pos hs]
  cases t with
  | nil => simp
  | cons c t =>
      have hc : p c = false := ht c rfl
      rw [List.takeWhile_cons_of_neg (by simp [hc]), List.dropWhile_cons_of_neg (by simp [hc]),
        List.append_nil]
      exact ⟨rfl, rfl⟩

/-- Two texts that each consist of a run and of characters outside of it have the same run. -/
theorem run_unique {p : Char → Bool} {s t s' t' : Str} (hs : ∀ c ∈ s, p c = true)
    (ht : ∀ c ∈ t, p c = false) (hs' : ∀ c ∈ s', p c = true) (ht' : ∀ c ∈ t', p c = false)
    (h : s ++ t = s' ++ t') : s = s' ∧ t = t' := by
  have hspan := span_of_run hs fun c hc => ht c (List.mem_of_mem_head? hc)
  have hspan' := span_of_run hs' fun c hc => ht' c (List.mem_of_mem_head? hc)
  rw [h] at hspan
  exact ⟨hspan.1.symm.trans hspan'.1, hspan.2.symm.trans hspan'.2⟩

/-- A piece has characters of the text that do not separate. -/
theorem of_mem_pieces {sep : Char → Bool} {s p : Str} (h : p ∈ pieces sep s) :
    ∀ c ∈ p, c ∈ s ∧ sep c = false := by
  induction s generalizing p with
  | nil =>
      rw [pieces, List.mem_singleton] at h
      simp [h]
  | cons d s ih =>
      have hrest : ∀ {q : Str}, q ∈ pieces sep s → ∀ c ∈ q, c ∈ d :: s ∧ sep c = false :=
        fun hq c hc => ⟨List.mem_cons_of_mem d (ih hq c hc).1, (ih hq c hc).2⟩
      rw [pieces] at h
      split at h
      · rcases List.mem_cons.mp h with rfl | h
        · simp
        · exact hrest h
      · rename_i hd
        cases hs : pieces sep s with
        | nil => exact absurd hs (pieces_ne_nil sep s)
        | cons w ws =>
            rw [hs] at h hrest
            rcases List.mem_cons.mp h with rfl | h
            · intro c hc
              rcases List.mem_cons.mp hc with rfl | hc
              · exact ⟨List.mem_cons_self, by simpa using hd⟩
              · exact hrest List.mem_cons_self c hc
            · exact hrest (List.mem_cons_of_mem w h)

/-! ### Carriage returns before newlines -/

/-- A line without the carriage return that may end it. -/
def dropReturn (s : Str) : Str := if s.getLast? = some '\r' then s.dropLast else s

theorem dropReturn_cons (c : Char) {w : Str} (hw : w ≠ []) :
    dropReturn (c :: w) = c :: dropReturn w := by
  have hlast : (c :: w).getLast? = w.getLast? := List.getLast?_cons_of_ne_nil hw
  unfold dropReturn
  rw [hlast]
  split
  · exact List.dropLast_cons_of_ne_nil hw
  · rfl

theorem newlineLines_eq_nil_iff {s : Str} : newlineLines s = [] ↔ s = [] := by
  cases s with
  | nil => simp [newlineLines]
  | cons c s =>
      refine iff_of_false ?_ (List.cons_ne_nil c s)
      rw [newlineLines]
      split
      · exact List.cons_ne_nil _ _
      · exact addFront_ne_nil c _

/-- The first line of a text that does not begin with a newline is not empty. -/
theorem newlineLines_cons_of_ne {c : Char} (hc : c ≠ '\n') {w : Str} {ws : List Str} (s : Str)
    (h : newlineLines (c :: s) = w :: ws) : w ≠ [] := by
  rw [newlineLines, if_neg hc] at h
  cases hs : newlineLines s with
  | nil =>
      rw [hs] at h
      cases h
      exact List.cons_ne_nil _ _
  | cons v vs =>
      rw [hs] at h
      cases h
      exact List.cons_ne_nil _ _

/-- The pieces of the lines that newlines end. -/
def linePieces (s : Str) : List Str :=
  ((newlineLines s).map dropReturn).flatMap (pieces isLineBoundary)

theorem linePieces_newline (s : Str) : linePieces ('\n' :: s) = [] :: linePieces s := by
  rw [linePieces, newlineLines, if_pos rfl]
  rfl

theorem linePieces_return (s : Str) : linePieces ('\r' :: '\n' :: s) = [] :: linePieces s := by
  rw [linePieces, newlineLines, if_neg (by decide), newlineLines, if_pos rfl]
  rfl

theorem linePieces_boundary {c : Char} (hc : isLineBoundary c = true) (hnewline : c ≠ '\n')
    {s : Str} (hs : ∀ t, c = '\r' → s ≠ '\n' :: t) :
    linePieces (c :: s) = [] :: linePieces s ∨ s = [] := by
  cases s with
  | nil => exact .inr rfl
  | cons d s =>
      refine .inl ?_
      obtain ⟨w, ws, hlines⟩ : ∃ w ws, newlineLines (d :: s) = w :: ws :=
        List.exists_cons_of_ne_nil (mt newlineLines_eq_nil_iff.mp (List.cons_ne_nil d s))
      rw [linePieces, linePieces, newlineLines, if_neg hnewline, hlines, addFront]
      have hdrop : pieces isLineBoundary (dropReturn (c :: w)) =
          [] :: pieces isLineBoundary (dropReturn w) := by
        by_cases hw : w = []
        · have hd : d = '\n' := by
            by_contra hne
            exact newlineLines_cons_of_ne hne s hlines hw
          have hreturn : c ≠ '\r' := fun heq => hs s heq (by rw [hd])
          have hkeep : dropReturn [c] = [c] := by simp [dropReturn, hreturn]
          rw [hw, hkeep, pieces, if_pos hc]
          rfl
        · rw [dropReturn_cons c hw, pieces, if_pos hc]
      rw [List.map_cons, List.flatMap_cons, hdrop, List.map_cons, List.flatMap_cons,
        List.cons_append]

theorem linePieces_cons {c : Char} (hc : isLineBoundary c = false) (s : Str) :
    linePieces (c :: s) = addFront c (linePieces s) := by
  have hnewline : c ≠ '\n' := by
    rintro rfl
    cases hc
  have hreturn : c ≠ '\r' := by
    rintro rfl
    cases hc
  rw [linePieces, linePieces, newlineLines, if_neg hnewline]
  have hcons : ∀ w : Str, pieces isLineBoundary (dropReturn (c :: w)) =
      addFront c (pieces isLineBoundary (dropReturn w)) := by
    intro w
    by_cases hw : w = []
    · have hkeep : dropReturn [c] = [c] := by simp [dropReturn, hreturn]
      rw [hw, hkeep, pieces, if_neg (by simp [hc])]
      rfl
    · rw [dropReturn_cons c hw, pieces, if_neg (by simp [hc])]
  cases hlines : newlineLines s with
  | nil =>
      rw [addFront, List.map_cons, List.flatMap_cons, hcons]
      rfl
  | cons w ws =>
      rw [addFront, List.map_cons, List.flatMap_cons, hcons, List.map_cons, List.flatMap_cons]
      obtain ⟨v, vs, hpieces⟩ := List.exists_cons_of_ne_nil
        (pieces_ne_nil isLineBoundary (dropReturn w))
      rw [hpieces]
      rfl

/-- The lines of a text are the pieces of its lines, but perhaps for an empty last one. -/
theorem splitLines_append_eq (s : Str) :
    splitLines s = linePieces s ∨ splitLines s ++ [[]] = linePieces s := by
  induction s using splitLines.induct with
  | case1 => exact .inl rfl
  | case2 s ih =>
      rw [splitLines, linePieces_return, List.cons_append]
      exact ih.imp (congrArg ([] :: ·)) (congrArg ([] :: ·))
  | case3 c s hcr hboundary ih =>
      rw [splitLines, if_pos hboundary]
      · by_cases hnewline : c = '\n'
        · rw [hnewline, linePieces_newline, List.cons_append]
          exact ih.imp (congrArg ([] :: ·)) (congrArg ([] :: ·))
        · rcases linePieces_boundary hboundary hnewline hcr with hlines | rfl
          · rw [hlines, List.cons_append]
            exact ih.imp (congrArg ([] :: ·)) (congrArg ([] :: ·))
          · by_cases hreturn : c = '\r'
            · rw [hreturn]
              exact .inl rfl
            · have hkeep : dropReturn [c] = [c] := by simp [dropReturn, hreturn]
              refine .inr ?_
              simp [linePieces, newlineLines, hnewline, addFront, hkeep, pieces, hboundary,
                splitLines]
      · exact hcr
  | case4 c s hcr hboundary ih =>
      rw [splitLines, if_neg hboundary, linePieces_cons (Bool.not_eq_true _ ▸ hboundary)]
      · rcases ih with heq | heq
        · exact .inl (congrArg (addFront c) heq)
        · rw [← heq]
          cases splitLines s with
          | nil => exact .inl rfl
          | cons w ws => exact .inr rfl
      · exact hcr

/-! ### The order of texts -/

theorem textLe_total (s t : Str) : textLe s t = true ∨ textLe t s = true := by
  induction s generalizing t with
  | nil => exact .inl rfl
  | cons c s ih =>
      cases t with
      | nil => exact .inr rfl
      | cons d t =>
          unfold textLe
          by_cases h : c = d
          · simpa [h] using ih t
          · simp only [if_neg h, if_neg (Ne.symm h), decide_eq_true_eq]
            omega

theorem textLe_antisymm {s t : Str} (hst : textLe s t = true) (hts : textLe t s = true) :
    s = t := by
  induction s generalizing t with
  | nil =>
      cases t with
      | nil => rfl
      | cons d t => cases hts
  | cons c s ih =>
      cases t with
      | nil => cases hst
      | cons d t =>
          unfold textLe at hst hts
          by_cases h : c = d
          · subst h
            simp only [if_true] at hst hts
            rw [ih hst hts]
          · simp only [if_neg h, if_neg (Ne.symm h), decide_eq_true_eq] at hst hts
            exact absurd (Char.toNat_inj.mp (Nat.le_antisymm hst hts)) h

theorem textLe_trans {r s t : Str} (hrs : textLe r s = true) (hst : textLe s t = true) :
    textLe r t = true := by
  induction r generalizing s t with
  | nil => rfl
  | cons b r ih =>
      cases s with
      | nil => cases hrs
      | cons c s =>
          cases t with
          | nil => cases hst
          | cons d t =>
              unfold textLe at hrs hst ⊢
              by_cases hbc : b = c
              · subst hbc
                by_cases hbd : b = d
                · simp only [if_true, if_pos hbd] at hrs hst ⊢
                  exact ih hrs hst
                · rwa [if_neg hbd] at hst ⊢
              · rw [if_neg hbc, decide_eq_true_eq] at hrs
                by_cases hcd : c = d
                · rw [← hcd, if_neg hbc]
                  exact decide_eq_true hrs
                · rw [if_neg hcd, decide_eq_true_eq] at hst
                  by_cases hbd : b = d
                  · subst hbd
                    exact absurd (Char.toNat_inj.mp (Nat.le_antisymm hrs hst)) hbc
                  · rw [if_neg hbd]
                    exact decide_eq_true (Nat.le_trans hrs hst)

/-! ### Line boundaries at the end of a line -/

/-- The lines that newlines end, without other line boundaries at their ends. -/
def trimmedLines (s : Str) : List Str := (newlineLines s).map (List.rdropWhile isLineBoundary)

theorem rdropWhile_append_of_all {w ds : Str} (hw : ∀ c ∈ w, isLineBoundary c = false)
    (hds : ∀ c ∈ ds, isLineBoundary c = true) : (w ++ ds).rdropWhile isLineBoundary = w := by
  have hself : w.rdropWhile isLineBoundary = w := by
    rw [List.rdropWhile_eq_self_iff]
    intro hne hlast
    rw [hw _ (List.getLast_mem hne)] at hlast
    cases hlast
  rw [List.rdropWhile, List.reverse_append, List.dropWhile_append_of_pos (by simpa using hds)]
  exact hself

/-- A character stays when one that is no boundary comes after it. -/
theorem mem_rdropWhile {u v : Str} {c d : Char} (hd : isLineBoundary d = false) (hmem : d ∈ v) :
    c ∈ (u ++ c :: v).rdropWhile isLineBoundary := by
  induction v using List.reverseRecOn with
  | nil => cases hmem
  | append_singleton v e ih =>
      rw [← List.cons_append, ← List.append_assoc]
      cases he : isLineBoundary e with
      | true =>
          rw [List.rdropWhile_concat_pos _ _ _ he]
          refine ih ?_
          rcases List.mem_append.mp hmem with h | h
          · exact h
          · rw [List.mem_singleton.mp h, he] at hd
            cases hd
      | false =>
          rw [List.rdropWhile_concat_neg _ _ _ (by simp [he])]
          simp

theorem newlineLines_append_newline {w : Str} (hw : '\n' ∉ w) (s : Str) :
    newlineLines (w ++ '\n' :: s) = w :: newlineLines s := by
  induction w with
  | nil => rw [List.nil_append, newlineLines, if_pos rfl]
  | cons c w ih =>
      rw [List.mem_cons, not_or] at hw
      rw [List.cons_append, newlineLines, if_neg (Ne.symm hw.1), ih hw.2, addFront]

theorem newlineLines_of_notMem {w : Str} (hne : w ≠ []) (hw : '\n' ∉ w) : newlineLines w = [w] := by
  induction w with
  | nil => exact absurd rfl hne
  | cons c w ih =>
      rw [List.mem_cons, not_or] at hw
      rw [newlineLines, if_neg (Ne.symm hw.1)]
      cases w with
      | nil => rfl
      | cons d w => rw [ih (List.cons_ne_nil d w) hw.2, addFront]

/-- A text up to its first separator. -/
theorem exists_first_separator (sep : Char → Bool) (s : Str) : ∃ w rest, s = w ++ rest ∧
    (∀ c ∈ w, sep c = false) ∧ ∀ c ∈ rest.head?, sep c = true := by
  induction s with
  | nil => exact ⟨[], [], rfl, fun _ h => absurd h List.not_mem_nil, fun _ h => by cases h⟩
  | cons c s ih =>
      cases hc : sep c with
      | true =>
          refine ⟨[], c :: s, rfl, fun _ h => absurd h List.not_mem_nil, fun d hd => ?_⟩
          rw [List.head?_cons, Option.mem_some_iff] at hd
          exact hd ▸ hc
      | false =>
          obtain ⟨w, rest, rfl, hw, hrest⟩ := ih
          refine ⟨c :: w, rest, rfl, ?_, hrest⟩
          rw [List.forall_mem_cons]
          exact ⟨hc, hw⟩

/-- The first line goes on to the first newline. -/
theorem newlineLines_append {w : Str} (hw : '\n' ∉ w) (hne : w ≠ []) {v rest : Str}
    (hv : '\n' ∉ v) (hrest : ∀ c ∈ rest.head?, c = '\n') :
    ∃ lines, newlineLines (w ++ (v ++ rest)) = (w ++ v) :: lines := by
  have hnotMem : '\n' ∉ w ++ v := by simp [hw, hv]
  rw [← List.append_assoc]
  cases rest with
  | nil =>
      rw [List.append_nil]
      exact ⟨[], newlineLines_of_notMem (List.append_ne_nil_of_left_ne_nil hne v) hnotMem⟩
  | cons d t =>
      obtain rfl : d = '\n' := hrest d rfl
      exact ⟨newlineLines t, newlineLines_append_newline hnotMem t⟩

theorem splitLines_cons_of_clear {c : Char} (hc : isLineBoundary c = false) (s : Str) :
    splitLines (c :: s) = addFront c (splitLines s) := by
  rw [splitLines, if_neg (by simp [hc])]
  rintro t rfl rfl
  cases hc

theorem splitLines_append {w : Str} (hw : ∀ c ∈ w, isLineBoundary c = false) {s line : Str}
    {lines : List Str} (h : splitLines s = line :: lines) :
    splitLines (w ++ s) = (w ++ line) :: lines := by
  induction w with
  | nil => exact h
  | cons c w ih =>
      rw [List.forall_mem_cons] at hw
      rw [List.cons_append, splitLines_cons_of_clear hw.1, ih hw.2, addFront, List.cons_append]

/-- A text without boundaries is one line for both notions of a line. -/
theorem splitLines_of_clear {w : Str} (hw : ∀ c ∈ w, isLineBoundary c = false) :
    splitLines w = trimmedLines w := by
  have htrim : w.rdropWhile isLineBoundary = w := by
    simpa using rdropWhile_append_of_all hw (fun c (h : c ∈ []) => absurd h List.not_mem_nil)
  have hsame : splitLines w = newlineLines w :=
    splitLines_eq_newlineLines (fun c hc hb => by cases (hw c hc).symm.trans hb)
  rw [hsame, trimmedLines]
  cases w with
  | nil => rfl
  | cons c w =>
      have hnotMem : '\n' ∉ c :: w := fun h => by cases (hw _ h).symm.trans isLineBoundary_newline
      rw [newlineLines_of_notMem (List.cons_ne_nil c w) hnotMem, List.map_singleton, htrim]

/-- A boundary ends an empty line; a carriage return and a newline are one boundary. -/
theorem splitLines_boundary {d : Char} (hd : isLineBoundary d = true) (s : Str) :
    ∃ t, splitLines (d :: s) = [] :: splitLines t ∧ (t = s ∨ d = '\r' ∧ s = '\n' :: t) := by
  by_cases hcr : ∃ t, d = '\r' ∧ s = '\n' :: t
  · obtain ⟨t, rfl, rfl⟩ := hcr
    exact ⟨t, by rw [splitLines], .inr ⟨rfl, rfl⟩⟩
  · refine ⟨s, ?_, .inl rfl⟩
    rw [splitLines, if_pos hd]
    rintro t rfl rfl
    exact hcr ⟨t, rfl, rfl⟩

/-- A boundary other than a newline with a further character behind it is inside a line. -/
theorem exists_boundary_within {w : Str} (hw : '\n' ∉ w) {d e : Char} (hd : d ≠ '\n')
    (he : isLineBoundary e = false) (u : Str) :
    ∃ line ∈ trimmedLines (w ++ d :: e :: u), d ∈ line := by
  obtain ⟨v, rest, rfl, hv, hrest⟩ := exists_first_separator (· = '\n') u
  have hfront : '\n' ∉ w ++ [d] := by simp [hw, Ne.symm hd]
  have hne : '\n' ≠ e := by
    rintro rfl
    cases he
  have hback : '\n' ∉ e :: v := by
    rw [List.mem_cons, not_or]
    exact ⟨hne, fun h => by simpa using hv _ h⟩
  obtain ⟨lines, hlines⟩ := newlineLines_append hfront (by simp) hback
    (fun c hc => by simpa using hrest c hc)
  have happend : w ++ d :: e :: (v ++ rest) = (w ++ [d]) ++ ((e :: v) ++ rest) := by simp
  have hfirst : (w ++ [d]) ++ (e :: v) = w ++ d :: e :: v := by simp
  refine ⟨(w ++ d :: e :: v).rdropWhile isLineBoundary, ?_, mem_rdropWhile he List.mem_cons_self⟩
  rw [trimmedLines, happend, hlines, hfirst]
  exact List.mem_cons_self

/-- When other boundaries than newlines only stand at the ends of lines, and no line is empty, the
lines of `str.splitlines` are those that newlines end. -/
theorem splitLines_eq_trimmedLines (s : Str)
    (hclear : ∀ line ∈ trimmedLines s, ∀ c ∈ line, isLineBoundary c = false)
    (hne : ∀ line ∈ splitLines s, line ≠ []) : splitLines s = trimmedLines s := by
  induction hlength : s.length using Nat.strong_induction_on generalizing s with
  | _ n ih =>
  obtain ⟨w, rest, rfl, hw, hrest⟩ := exists_first_separator isLineBoundary s
  have hnotMem : '\n' ∉ w := fun h => by cases (hw _ h).symm.trans isLineBoundary_newline
  have htrim : w.rdropWhile isLineBoundary = w := by
    simpa using rdropWhile_append_of_all hw (fun c (h : c ∈ []) => absurd h List.not_mem_nil)
  cases rest with
  | nil =>
      rw [List.append_nil]
      exact splitLines_of_clear hw
  | cons d t =>
      have hd : isLineBoundary d = true := hrest d rfl
      obtain ⟨t', ht', hcases⟩ := splitLines_boundary hd t
      have hsplit := splitLines_append hw ht'
      rw [List.append_nil] at hsplit
      rw [hsplit, List.forall_mem_cons] at hne
      have hrec : ∀ first, newlineLines (w ++ d :: t) = first :: newlineLines t' →
          first.rdropWhile isLineBoundary = w → t'.length < n →
          splitLines (w ++ d :: t) = trimmedLines (w ++ d :: t) := by
        intro first hlines hfirst hlt
        have htrimmed : trimmedLines (w ++ d :: t) = w :: trimmedLines t' := by
          rw [trimmedLines, hlines, List.map_cons, hfirst, trimmedLines]
        rw [htrimmed, List.forall_mem_cons] at hclear
        rw [hsplit, htrimmed, ih _ hlt t' hclear.2 hne.2 rfl]
      rw [List.length_append, List.length_cons] at hlength
      by_cases hnewline : d = '\n'
      · obtain rfl : t' = t := hcases.resolve_right fun h => by cases hnewline.symm.trans h.1
        exact hrec w (hnewline ▸ newlineLines_append_newline hnotMem t') htrim (by omega)
      rcases hcases with rfl | ⟨rfl, rfl⟩
      · cases t' with
        | nil =>
            have hlines := newlineLines_of_notMem (w := w ++ [d]) (by simp)
              (by simp [hnotMem, Ne.symm hnewline])
            refine hrec (w ++ [d]) hlines (rdropWhile_append_of_all hw fun c hc =>
              List.mem_singleton.mp hc ▸ hd) ?_
            rw [List.length_nil] at hlength ⊢
            omega
        | cons e u =>
            -- the line after `d` is not empty, so `d` is inside a line
            have he : isLineBoundary e = false := by
              by_contra hboundary
              obtain ⟨t, ht, -⟩ := splitLines_boundary (Bool.of_not_eq_false hboundary) u
              exact hne.2 [] (ht ▸ List.mem_cons_self) rfl
            obtain ⟨line, hline, hmem⟩ := exists_boundary_within hnotMem hnewline he u
            cases hd.symm.trans (hclear line hline d hmem)
      · have hlines : newlineLines (w ++ '\r' :: '\n' :: t') =
            (w ++ ['\r']) :: newlineLines t' := by
          have happend : w ++ '\r' :: '\n' :: t' = (w ++ ['\r']) ++ '\n' :: t' := by simp
          rw [happend]
          exact newlineLines_append_newline (by simp [hnotMem]) t'
        refine hrec _ hlines (rdropWhile_append_of_all hw fun c hc =>
          List.mem_singleton.mp hc ▸ hd) ?_
        rw [List.length_cons] at hlength
        omega
end Gjallar.TextLines

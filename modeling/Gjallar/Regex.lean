import Mathlib.Data.List.Basic
import Mathlib.Data.List.Infix
import Mathlib.Data.List.TakeDrop

/-!
# Backtracking patterns over an arbitrary alphabet

`run` lists the ways a pattern can match at a position in the order a backtracking matcher tries
them. `Matches` says declaratively which words a pattern accepts between two contexts, and
`mem_run` identifies the two. Full matching and left-to-right scanning are defined from `run`.
-/
namespace Gjallar.Regex

/-- The captured groups of a match, in the order in which they were closed. -/
abbrev Groups (α : Type) := List (ℕ × List α)

/-- Patterns. `star` is greedy; `ahead` and `behind` test the context without consuming it, the
text before the position being given in reverse. -/
inductive Pattern (α : Type) where
  | eps
  | one (p : α → Bool)
  | seq (p q : Pattern α)
  | alt (p q : Pattern α)
  | star (p : Pattern α)
  | group (n : ℕ) (p : Pattern α)
  | ahead (p : List α → Bool)
  | behind (p : List α → Bool)

/-- One match: the consumed text, what is left after it, and the captured groups. -/
structure Match (α : Type) where
  text : List α
  rest : List α
  groups : Groups α
  deriving DecidableEq

namespace Match

/-- Put a match in front of one that starts where it ends. -/
def append (m n : Match α) : Match α := ⟨m.text ++ n.text, n.rest, m.groups ++ n.groups⟩

@[simp] theorem append_text (m n : Match α) : (m.append n).text = m.text ++ n.text := rfl
@[simp] theorem append_rest (m n : Match α) : (m.append n).rest = n.rest := rfl
@[simp] theorem append_groups (m n : Match α) : (m.append n).groups = m.groups ++ n.groups := rfl

/-- The text a group captured last. -/
def group (m : Match α) (n : ℕ) : Option (List α) :=
  m.groups.reverse.lookup n

end Match

namespace Pattern

/-- Greedy repetition of a matcher. An iteration that consumes nothing ends the loop. -/
def iterate (step : List α → List α → List (Match α)) :
    ℕ → List α → List α → List (Match α)
  | 0, _, s => [⟨[], s, []⟩]
  | n + 1, b, s =>
      (step b s).flatMap (fun m =>
        if m.text.isEmpty then []
        else (iterate step n (m.text.reverse ++ b) m.rest).map m.append) ++ [⟨[], s, []⟩]

/-- All matches at a position, in the order a backtracking matcher tries them. -/
def run : Pattern α → List α → List α → List (Match α)
  | eps, _, s => [⟨[], s, []⟩]
  | one _, _, [] => []
  | one p, _, c :: s => if p c then [⟨[c], s, []⟩] else []
  | seq p q, b, s =>
      (run p b s).flatMap fun m => (run q (m.text.reverse ++ b) m.rest).map m.append
  | alt p q, b, s => run p b s ++ run q b s
  | star p, b, s => iterate (run p) s.length b s
  | group n p, b, s => (run p b s).map fun m => { m with groups := m.groups ++ [(n, m.text)] }
  | ahead f, _, s => if f s then [⟨[], s, []⟩] else []
  | behind f, b, s => if f b then [⟨[], s, []⟩] else []

/-- Finitely many nonempty iterations of a relation between contexts. -/
inductive Iterated (R : List α → List α → List α → Groups α → Prop) :
    List α → List α → List α → Groups α → Prop
  | nil (b a : List α) : Iterated R b [] a []
  | cons {b w v a : List α} {g h : Groups α} (first : R b w (v ++ a) g) (progress : w ≠ [])
      (rest : Iterated R (w.reverse ++ b) v a h) : Iterated R b (w ++ v) a (g ++ h)

/-- `Matches p b w a g`: between the contexts `b` (reversed) and `a` the pattern accepts the word
`w` and captures `g`. -/
def Matches : Pattern α → List α → List α → List α → Groups α → Prop
  | eps, _, w, _, g => w = [] ∧ g = []
  | one p, _, w, _, g => (∃ c, p c = true ∧ w = [c]) ∧ g = []
  | seq p q, b, w, a, g => ∃ u v h k, w = u ++ v ∧ g = h ++ k ∧
      Matches p b u (v ++ a) h ∧ Matches q (u.reverse ++ b) v a k
  | alt p q, b, w, a, g => Matches p b w a g ∨ Matches q b w a g
  | star p, b, w, a, g => Iterated (Matches p) b w a g
  | group n p, b, w, a, g => ∃ h, Matches p b w a h ∧ g = h ++ [(n, w)]
  | ahead f, _, w, a, g => f a = true ∧ w = [] ∧ g = []
  | behind f, b, w, _, g => f b = true ∧ w = [] ∧ g = []

@[simp] theorem matches_eps (b w a : List α) (g : Groups α) :
    (eps : Pattern α).Matches b w a g ↔ w = [] ∧ g = [] := Iff.rfl

@[simp] theorem matches_one (p : α → Bool) (b w a : List α) (g : Groups α) :
    (one p).Matches b w a g ↔ (∃ c, p c = true ∧ w = [c]) ∧ g = [] := Iff.rfl

@[simp] theorem matches_seq (p q : Pattern α) (b w a : List α) (g : Groups α) :
    (seq p q).Matches b w a g ↔ ∃ u v h k, w = u ++ v ∧ g = h ++ k ∧
      p.Matches b u (v ++ a) h ∧ q.Matches (u.reverse ++ b) v a k := Iff.rfl

@[simp] theorem matches_alt (p q : Pattern α) (b w a : List α) (g : Groups α) :
    (alt p q).Matches b w a g ↔ p.Matches b w a g ∨ q.Matches b w a g := Iff.rfl

@[simp] theorem matches_group (n : ℕ) (p : Pattern α) (b w a : List α) (g : Groups α) :
    (group n p).Matches b w a g ↔ ∃ h, p.Matches b w a h ∧ g = h ++ [(n, w)] := Iff.rfl

@[simp] theorem matches_ahead (f : List α → Bool) (b w a : List α) (g : Groups α) :
    (ahead f).Matches b w a g ↔ f a = true ∧ w = [] ∧ g = [] := Iff.rfl

@[simp] theorem matches_behind (f : List α → Bool) (b w a : List α) (g : Groups α) :
    (behind f).Matches b w a g ↔ f b = true ∧ w = [] ∧ g = [] := Iff.rfl

theorem iterated_iff {R : List α → List α → List α → Groups α → Prop} {b t a : List α}
    {g : Groups α} : Iterated R b t a g ↔ (t = [] ∧ g = []) ∨ ∃ w v h k, t = w ++ v ∧ g = h ++ k ∧
      w ≠ [] ∧ R b w (v ++ a) h ∧ Iterated R (w.reverse ++ b) v a k := by
  constructor
  · intro hi
    cases hi with
    | nil => exact Or.inl ⟨rfl, rfl⟩
    | cons first progress rest => exact Or.inr ⟨_, _, _, _, rfl, rfl, progress, first, rest⟩
  · rintro (⟨rfl, rfl⟩ | ⟨w, v, h, k, rfl, rfl, progress, first, rest⟩)
    · exact .nil b a
    · exact .cons first progress rest

/-! ### The matcher finds exactly the accepted words -/

theorem mem_iterate {step : List α → List α → List (Match α)}
    {R : List α → List α → List α → Groups α → Prop}
    (hstep : ∀ b s m, m ∈ step b s ↔ s = m.text ++ m.rest ∧ R b m.text m.rest m.groups) :
    ∀ (n : ℕ) (b s : List α) (m : Match α), s.length ≤ n →
      (m ∈ iterate step n b s ↔ s = m.text ++ m.rest ∧ Iterated R b m.text m.rest m.groups) := by
  intro n
  induction n with
  | zero =>
      intro b s m hs
      have hnil : s = [] := List.length_eq_zero_iff.mp (Nat.le_zero.mp hs)
      subst hnil
      simp only [iterate, List.mem_singleton]
      constructor
      · rintro rfl
        exact ⟨rfl, .nil b []⟩
      · rintro ⟨h, hi⟩
        obtain ⟨ht, hr⟩ := List.append_eq_nil_iff.mp h.symm
        obtain ⟨t, r, g⟩ := m
        simp only at ht hr hi
        subst ht hr
        rcases iterated_iff.mp hi with ⟨-, rfl⟩ | ⟨w, v, _, _, hw, -, hne, -⟩
        · rfl
        · exact absurd (List.append_eq_nil_iff.mp hw.symm).1 hne
  | succ n ih =>
      intro b s m hs
      simp only [iterate, List.mem_append, List.mem_flatMap, List.mem_singleton]
      constructor
      · rintro (⟨k, hk, hm⟩ | rfl)
        · obtain ⟨hsplit, hR⟩ := (hstep b s k).mp hk
          by_cases hempty : k.text.isEmpty
          · simp [hempty] at hm
          · simp only [hempty, Bool.false_eq_true, if_false, List.mem_map] at hm
            obtain ⟨r, hr, rfl⟩ := hm
            have hne : k.text ≠ [] := by simpa using hempty
            have hpos := List.length_pos_iff.mpr hne
            have hlen : k.rest.length ≤ n := by
              have := congrArg List.length hsplit
              simp only [List.length_append] at this
              omega
            obtain ⟨hrest, hiter⟩ := (ih _ _ r hlen).mp hr
            refine ⟨?_, ?_⟩
            · simp [hsplit, hrest]
            · exact .cons (hrest ▸ hR) hne hiter
        · exact ⟨rfl, .nil b s⟩
      · rintro ⟨hsplit, hiter⟩
        obtain ⟨t, r, g⟩ := m
        simp only at hsplit hiter
        rcases iterated_iff.mp hiter with
          ⟨rfl, rfl⟩ | ⟨w, v, h, k, rfl, rfl, progress, first, rest⟩
        · exact Or.inr (by simp [hsplit])
        · refine Or.inl ⟨⟨w, v ++ r, h⟩, ?_, ?_⟩
          · exact (hstep b s _).mpr ⟨by simp [hsplit], first⟩
          · have hpos := List.length_pos_iff.mpr progress
            have hlen : (v ++ r).length ≤ n := by
              have := congrArg List.length hsplit
              simp only [List.length_append] at this hs ⊢
              omega
            have hempty : w.isEmpty = false := by simpa using progress
            simp only [hempty, Bool.false_eq_true, if_false, List.mem_map]
            exact ⟨⟨v, r, k⟩, (ih _ _ _ hlen).mpr ⟨rfl, rest⟩, rfl⟩

/-- The matcher lists exactly the matches of the declarative reading. -/
theorem mem_run (p : Pattern α) (b s : List α) (m : Match α) :
    m ∈ p.run b s ↔ s = m.text ++ m.rest ∧ p.Matches b m.text m.rest m.groups := by
  induction p generalizing b s m with
  | eps =>
      obtain ⟨t, r, g⟩ := m
      simp only [run, List.mem_singleton, Match.mk.injEq, matches_eps]
      constructor
      · rintro ⟨rfl, rfl, rfl⟩
        simp
      · rintro ⟨hs, rfl, rfl⟩
        simpa using hs.symm
  | one p =>
      obtain ⟨t, r, g⟩ := m
      cases s with
      | nil =>
          simp only [run, List.not_mem_nil, matches_one, false_iff]
          rintro ⟨h, ⟨c, -, rfl⟩, -⟩
          simp at h
      | cons c s =>
          by_cases hp : p c
          · simp only [run, hp, if_true, List.mem_singleton, Match.mk.injEq, matches_one]
            constructor
            · rintro ⟨rfl, rfl, rfl⟩
              exact ⟨rfl, ⟨c, hp, rfl⟩, rfl⟩
            · rintro ⟨h, ⟨d, -, rfl⟩, rfl⟩
              simp_all
          · simp only [run, hp, Bool.false_eq_true, if_false, List.not_mem_nil, matches_one,
              false_iff]
            rintro ⟨h, ⟨d, hd, rfl⟩, -⟩
            simp only [List.cons_append, List.nil_append, List.cons.injEq] at h
            exact hp (h.1 ▸ hd)
  | seq p q ihp ihq =>
      simp only [run, List.mem_flatMap, List.mem_map, matches_seq]
      constructor
      · rintro ⟨k, hk, r, hr, rfl⟩
        obtain ⟨hs, hp⟩ := (ihp b s k).mp hk
        obtain ⟨hrest, hq⟩ := (ihq _ _ r).mp hr
        exact ⟨by simp [hs, hrest], _, _, _, _, rfl, rfl, hrest ▸ hp, hq⟩
      · obtain ⟨t, r, g⟩ := m
        rintro ⟨hs, u, v, h, k, ht, hg, hp, hq⟩
        simp only at hs ht hg hp hq
        subst ht hg
        exact ⟨⟨u, v ++ r, h⟩, (ihp b s _).mpr ⟨by simp [hs], hp⟩, ⟨v, r, k⟩,
          (ihq _ _ _).mpr ⟨rfl, hq⟩, rfl⟩
  | alt p q ihp ihq =>
      simp only [run, List.mem_append, ihp, ihq, matches_alt]
      exact and_or_left.symm
  | star p ih => exact mem_iterate ih _ b s m le_rfl
  | group n p ih =>
      obtain ⟨t, r, g⟩ := m
      simp only [run, List.mem_map, matches_group]
      constructor
      · rintro ⟨k, hk, heq⟩
        obtain ⟨hs, hp⟩ := (ih b s k).mp hk
        cases heq
        exact ⟨hs, k.groups, hp, rfl⟩
      · rintro ⟨hs, h, hp, rfl⟩
        exact ⟨⟨t, r, h⟩, (ih b s _).mpr ⟨hs, hp⟩, rfl⟩
  | ahead f =>
      obtain ⟨t, r, g⟩ := m
      by_cases hf : f s <;> simp only [run, hf, if_true, Bool.false_eq_true, if_false,
        List.mem_singleton, List.not_mem_nil, Match.mk.injEq, matches_ahead, false_iff]
      · constructor
        · rintro ⟨rfl, rfl, rfl⟩
          exact ⟨rfl, hf, rfl, rfl⟩
        · rintro ⟨hs, -, rfl, rfl⟩
          exact ⟨rfl, by simpa using hs.symm, rfl⟩
      · rintro ⟨hs, ha, rfl, -⟩
        exact hf (by simpa [hs] using ha)
  | behind f =>
      obtain ⟨t, r, g⟩ := m
      by_cases hf : f b <;> simp only [run, hf, if_true, Bool.false_eq_true, if_false,
        List.mem_singleton, List.not_mem_nil, Match.mk.injEq, matches_behind, false_iff]
      · constructor
        · rintro ⟨rfl, rfl, rfl⟩
          exact ⟨rfl, trivial, rfl, rfl⟩
        · rintro ⟨hs, -, rfl, rfl⟩
          exact ⟨rfl, by simpa using hs.symm, rfl⟩
      · rintro ⟨-, h, -⟩
        exact h.elim

/-! ### Derived patterns -/

/-- A literal word. -/
def lit [DecidableEq α] : List α → Pattern α
  | [] => eps
  | c :: w => seq (one (· = c)) (lit w)

/-- At most `n` repetitions, greedy. -/
def upTo (p : Pattern α) : ℕ → Pattern α
  | 0 => eps
  | n + 1 => alt (seq p (upTo p n)) eps

/-- Exactly `n` repetitions. -/
def times (p : Pattern α) : ℕ → Pattern α
  | 0 => eps
  | n + 1 => seq p (times p n)

/-- At least one repetition, greedy. -/
def plus (p : Pattern α) : Pattern α := seq p (star p)

/-- An optional part, tried first. -/
def opt (p : Pattern α) : Pattern α := alt p eps

/-- The first of several alternatives. -/
def oneOf [DecidableEq α] : List (List α) → Pattern α
  | [] => one fun _ => false
  | w :: ws => alt (lit w) (oneOf ws)

@[simp] theorem matches_lit [DecidableEq α] (l b w a : List α) (g : Groups α) :
    (lit l).Matches b w a g ↔ w = l ∧ g = [] := by
  induction l generalizing b w a g with
  | nil => simp [lit]
  | cons c l ih =>
      simp only [lit, matches_seq, matches_one, ih, decide_eq_true_eq]
      constructor
      · rintro ⟨u, v, h, k, rfl, rfl, ⟨⟨d, rfl, rfl⟩, rfl⟩, rfl, rfl⟩
        simp
      · rintro ⟨rfl, rfl⟩
        exact ⟨[c], l, [], [], rfl, rfl, ⟨⟨c, rfl, rfl⟩, rfl⟩, rfl, rfl⟩

@[simp] theorem matches_oneOf [DecidableEq α] (ws : List (List α)) (b w a : List α)
    (g : Groups α) : (oneOf ws).Matches b w a g ↔ w ∈ ws ∧ g = [] := by
  induction ws with
  | nil => simp [oneOf]
  | cons v ws ih => simp [oneOf, ih, or_and_right]

@[simp] theorem matches_opt (p : Pattern α) (b w a : List α) (g : Groups α) :
    (opt p).Matches b w a g ↔ p.Matches b w a g ∨ (w = [] ∧ g = []) := Iff.rfl

@[simp] theorem matches_star_one (p : α → Bool) (b w a : List α) (g : Groups α) :
    (star (one p)).Matches b w a g ↔ (∀ c ∈ w, p c = true) ∧ g = [] := by
  constructor
  · intro h
    induction h with
    | nil => simp
    | cons first _ _ ih =>
        obtain ⟨⟨c, hc, rfl⟩, rfl⟩ := first
        exact ⟨by simpa using ⟨hc, ih.1⟩, by simpa using ih.2⟩
  · rintro ⟨h, rfl⟩
    induction w generalizing b with
    | nil => exact Iterated.nil b a
    | cons c w ih =>
        rw [List.forall_mem_cons] at h
        exact Iterated.cons (w := [c]) (g := []) ⟨⟨c, h.1, rfl⟩, rfl⟩ (List.cons_ne_nil c [])
          (ih _ h.2)

@[simp] theorem matches_plus_one (p : α → Bool) (b w a : List α) (g : Groups α) :
    (plus (one p)).Matches b w a g ↔ w ≠ [] ∧ (∀ c ∈ w, p c = true) ∧ g = [] := by
  simp only [plus, matches_seq, matches_one, matches_star_one]
  constructor
  · rintro ⟨u, v, h, k, rfl, rfl, ⟨⟨c, hc, rfl⟩, rfl⟩, hv, rfl⟩
    exact ⟨by simp, by simpa using ⟨hc, hv⟩, rfl⟩
  · rintro ⟨hne, hall, rfl⟩
    obtain ⟨c, w, rfl⟩ := List.exists_cons_of_ne_nil hne
    rw [List.forall_mem_cons] at hall
    exact ⟨[c], w, [], [], rfl, rfl, ⟨⟨c, hall.1, rfl⟩, rfl⟩, hall.2, rfl⟩

@[simp] theorem matches_upTo_one (p : α → Bool) (n : ℕ) (b w a : List α) (g : Groups α) :
    (upTo (one p) n).Matches b w a g ↔ w.length ≤ n ∧ (∀ c ∈ w, p c = true) ∧ g = [] := by
  induction n generalizing b w a g with
  | zero =>
      simp only [upTo, matches_eps, Nat.le_zero, List.length_eq_zero_iff]
      constructor
      · rintro ⟨rfl, rfl⟩; simp
      · rintro ⟨rfl, -, rfl⟩; simp
  | succ n ih =>
      simp only [upTo, matches_alt, matches_seq, matches_one, ih, matches_eps]
      constructor
      · rintro (⟨u, v, h, k, rfl, rfl, ⟨⟨c, hc, rfl⟩, rfl⟩, hlen, hv, rfl⟩ | ⟨rfl, rfl⟩)
        · exact ⟨by simpa using hlen, by simpa using ⟨hc, hv⟩, rfl⟩
        · simp
      · rintro ⟨hlen, hall, rfl⟩
        cases w with
        | nil => exact Or.inr ⟨rfl, rfl⟩
        | cons c w =>
            rw [List.forall_mem_cons] at hall
            exact Or.inl ⟨[c], w, [], [], rfl, rfl, ⟨⟨c, hall.1, rfl⟩, rfl⟩,
              by simpa using hlen, hall.2, rfl⟩

/-! ### Matching the whole text -/

/-- The first way in which the pattern accepts the whole text. -/
def fullmatch (p : Pattern α) (s : List α) : Option (Match α) :=
  (p.run [] s).find? fun m => m.rest.isEmpty

theorem fullmatch_eq_some {p : Pattern α} {s : List α} {m : Match α}
    (h : p.fullmatch s = some m) : m.text = s ∧ m.rest = [] ∧ p.Matches [] s [] m.groups := by
  have hrest : m.rest = [] := by simpa using List.find?_some h
  obtain ⟨hs, hm⟩ := (mem_run p [] s m).mp (List.mem_of_find?_eq_some h)
  rw [hrest, List.append_nil] at hs
  exact ⟨hs.symm, hrest, by rwa [hrest, ← hs] at hm⟩

theorem fullmatch_isSome_iff (p : Pattern α) (s : List α) :
    (p.fullmatch s).isSome = true ↔ ∃ g, p.Matches [] s [] g := by
  constructor
  · intro h
    obtain ⟨m, hm⟩ := Option.isSome_iff_exists.mp h
    exact ⟨m.groups, (fullmatch_eq_some hm).2.2⟩
  · rintro ⟨g, hg⟩
    have hmem : (⟨s, [], g⟩ : Match α) ∈ p.run [] s :=
      (mem_run p [] s _).mpr ⟨(List.append_nil s).symm, hg⟩
    simp only [fullmatch, List.find?_isSome]
    exact ⟨_, hmem, rfl⟩

/-! ### Scanning a text from left to right -/

/-- A scanned text: characters outside every match, and the matches. -/
inductive Token (α : Type) where
  | skipped (c : α)
  | found (m : Match α)

/-- Left-to-right scan for nonempty, non-overlapping matches; the number is how many characters
of the last match are still to be passed over. -/
def scan (p : Pattern α) : ℕ → List α → List α → List (Token α)
  | _, _, [] => []
  | k + 1, b, c :: s => scan p k (c :: b) s
  | 0, b, c :: s =>
      match (p.run b (c :: s)).find? (fun m => !m.text.isEmpty) with
      | some m => .found m :: scan p (m.text.length - 1) (c :: b) s
      | none => .skipped c :: scan p 0 (c :: b) s

/-- Replace every match. -/
def sub (p : Pattern α) (f : Match α → List α) (s : List α) : List α :=
  (scan p 0 [] s).flatMap fun
    | .skipped c => [c]
    | .found m => f m

/-- A pattern with no nonempty match in a text leaves every character of the text in place. -/
theorem scan_of_no_match {p : Pattern α} {s : List α} (b : List α)
    (h : ∀ b' u m, (∃ v, s = v ++ u) → m ∈ p.run b' u → m.text = []) :
    scan p 0 b s = s.map .skipped := by
  induction s generalizing b with
  | nil => rfl
  | cons c s ih =>
      have hnone : (p.run b (c :: s)).find? (fun m => !m.text.isEmpty) = none := by
        rw [List.find?_eq_none]
        intro m hm
        simp [h b (c :: s) m ⟨[], rfl⟩ hm]
      simp only [scan, hnone, List.map_cons]
      rw [ih (c :: b) fun b' u m hu hm => h b' u m
        (hu.imp' (c :: ·) fun v hv => by simp [hv]) hm]

theorem sub_of_no_match {p : Pattern α} {f : Match α → List α} {s : List α}
    (h : ∀ b' u m, (∃ v, s = v ++ u) → m ∈ p.run b' u → m.text = []) : p.sub f s = s := by
  rw [sub, scan_of_no_match [] h, List.flatMap_map]
  exact List.flatMap_singleton' s

end Pattern

end Gjallar.Regex

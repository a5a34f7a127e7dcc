import Gjallar.Regex

/-!
# Patterns over another alphabet

A pattern is read on the texts of a larger alphabet through a map of the alphabets. It matches and
substitutes there what it matches and substitutes on the mapped texts, so the larger alphabet can
carry what the pattern does not look at. The last section says what the first match of a pattern
is.
-/
namespace Gjallar.Regex

variable {α β : Type}

def Match.map (f : α → β) (m : Match α) : Match β :=
  ⟨m.text.map f, m.rest.map f, m.groups.map fun g => (g.1, g.2.map f)⟩

@[simp] theorem Match.map_text (f : α → β) (m : Match α) : (m.map f).text = m.text.map f := rfl
@[simp] theorem Match.map_rest (f : α → β) (m : Match α) : (m.map f).rest = m.rest.map f := rfl
@[simp] theorem Match.map_groups (f : α → β) (m : Match α) :
    (m.map f).groups = m.groups.map fun g => (g.1, g.2.map f) := rfl

theorem Match.map_append (f : α → β) (m n : Match α) :
    (m.append n).map f = (m.map f).append (n.map f) := by
  simp [Match.map, Match.append]

theorem Match.map_group (f : α → β) (m : Match α) (n : ℕ) :
    (m.map f).group n = (m.group n).map (List.map f) := by
  unfold Match.group
  rw [Match.map_groups, ← List.map_reverse]
  induction m.groups.reverse with
  | nil => rfl
  | cons g groups ih =>
      rw [List.map_cons, List.lookup_cons, List.lookup_cons]
      cases n == g.1 with
      | true => rfl
      | false => exact ih

namespace Pattern

/-- The pattern on texts of which it sees the images. -/
def comap (f : α → β) : Pattern β → Pattern α
  | eps => eps
  | one p => one (p ∘ f)
  | seq p q => seq (comap f p) (comap f q)
  | alt p q => alt (comap f p) (comap f q)
  | star p => star (comap f p)
  | group n p => group n (comap f p)
  | ahead p => ahead fun s => p (s.map f)
  | behind p => behind fun s => p (s.map f)

theorem iterate_map {f : α → β} {step : List α → List α → List (Match α)}
    {step' : List β → List β → List (Match β)}
    (h : ∀ b s, (step b s).map (Match.map f) = step' (b.map f) (s.map f)) (n : ℕ)
    (b s : List α) :
    (iterate step n b s).map (Match.map f) = iterate step' n (b.map f) (s.map f) := by
  induction n generalizing b s with
  | zero => rfl
  | succ n ih =>
      have hempty : ∀ m : Match α, (m.map f).text.isEmpty = m.text.isEmpty := by
        intro m
        rw [Match.map_text, List.isEmpty_map]
      rw [iterate, iterate, List.map_append, List.map_flatMap, ← h, List.flatMap_map]
      refine congrArg₂ _ (List.flatMap_congr fun m _ => ?_) rfl
      rw [hempty]
      split
      · rfl
      · have happend : Match.map f ∘ m.append = (m.map f).append ∘ Match.map f :=
          funext (Match.map_append f m)
        rw [List.map_map, happend, ← List.map_map, ih, List.map_append, List.map_reverse]
        rfl

theorem run_comap (f : α → β) (p : Pattern β) (b s : List α) :
    ((p.comap f).run b s).map (Match.map f) = p.run (b.map f) (s.map f) := by
  induction p generalizing b s with
  | eps => rfl
  | one p =>
      cases s with
      | nil => rfl
      | cons c s =>
          rw [comap, run, List.map_cons, run, Function.comp_apply]
          split <;> rfl
  | seq p q ihp ihq =>
      rw [comap, run, run, List.map_flatMap, ← ihp, List.flatMap_map]
      refine List.flatMap_congr fun m _ => ?_
      have happend : Match.map f ∘ m.append = (m.map f).append ∘ Match.map f :=
        funext (Match.map_append f m)
      rw [List.map_map, happend, ← List.map_map, ihq, List.map_append, List.map_reverse]
      rfl
  | alt p q ihp ihq => rw [comap, run, run, List.map_append, ihp, ihq]
  | star p ih =>
      rw [comap, run, run, List.length_map]
      exact iterate_map ih s.length b s
  | group n p ih =>
      rw [comap, run, run, ← ih, List.map_map, List.map_map]
      refine List.map_congr_left fun m _ => ?_
      simp [Match.map]
  | ahead p =>
      rw [comap, run, run]
      split <;> rfl
  | behind p =>
      rw [comap, run, run]
      split <;> rfl

/-- What the pattern accepts, it accepts of the images. -/
theorem matches_comap {f : α → β} {p : Pattern β} {b w a : List α} {g : Groups α}
    (h : (p.comap f).Matches b w a g) :
    p.Matches (b.map f) (w.map f) (a.map f) (g.map fun x => (x.1, x.2.map f)) := by
  have hmem : (⟨w, a, g⟩ : Match α) ∈ (p.comap f).run b (w ++ a) := (mem_run _ _ _ _).mpr ⟨rfl, h⟩
  have hmap := List.mem_map_of_mem (f := Match.map f) hmem
  rw [run_comap] at hmap
  exact ((mem_run _ _ _ _).mp hmap).2

/-! ### Steps of a scan -/

section Scan

variable {p : Pattern α}

/-- The characters of the last match are passed over. -/
theorem scan_add (k : ℕ) (b u s : List α) :
    scan p (u.length + k) b (u ++ s) = scan p k (u.reverse ++ b) s := by
  induction u generalizing b with
  | nil => rw [List.length_nil, Nat.zero_add, List.nil_append, List.reverse_nil, List.nil_append]
  | cons c u ih =>
      rw [List.length_cons, Nat.add_right_comm, List.cons_append, scan, ih, List.reverse_cons,
        List.append_assoc]
      rfl

/-- The first match at a position. -/
def found (p : Pattern α) (b s : List α) : Option (Match α) :=
  (p.run b s).find? fun m => !m.text.isEmpty

theorem found_eq_some {b s : List α} {m : Match α} (h : found p b s = some m) :
    m ∈ p.run b s ∧ m.text ≠ [] ∧ s = m.text ++ m.rest := by
  have hmem := List.mem_of_find?_eq_some h
  have hne := List.find?_some h
  exact ⟨hmem, by simpa using hne, ((mem_run p b s m).mp hmem).1⟩

theorem scan_of_found {b s : List α} {m : Match α} (h : found p b s = some m) :
    scan p 0 b s = .found m :: scan p 0 (m.text.reverse ++ b) m.rest := by
  obtain ⟨-, hne, hs⟩ := found_eq_some h
  obtain ⟨c, u, htext⟩ := List.exists_cons_of_ne_nil hne
  have hs' : s = c :: (u ++ m.rest) := by rw [hs, htext, List.cons_append]
  rw [hs'] at h ⊢
  have hfind : (p.run b (c :: (u ++ m.rest))).find? (fun m => !m.text.isEmpty) = some m := h
  simp only [scan, hfind]
  rw [htext, List.length_cons, Nat.add_sub_cancel, ← Nat.add_zero u.length, scan_add,
    List.reverse_cons, List.append_assoc]
  rfl

theorem scan_of_not_found {b : List α} {c : α} {s : List α} (h : found p b (c :: s) = none) :
    scan p 0 b (c :: s) = .skipped c :: scan p 0 (c :: b) s := by
  have hfind : (p.run b (c :: s)).find? (fun m => !m.text.isEmpty) = none := h
  simp only [scan, hfind]

/-- The text that a scan makes. -/
def rewritten (f : Match α → List α) (tokens : List (Token α)) : List α :=
  tokens.flatMap fun
    | .skipped c => [c]
    | .found m => f m

theorem sub_eq_rewritten (f : Match α → List α) (s : List α) :
    p.sub f s = rewritten f (scan p 0 [] s) := rfl

@[simp] theorem rewritten_skipped (f : Match α → List α) (c : α) (ts : List (Token α)) :
    rewritten f (.skipped c :: ts) = c :: rewritten f ts := rfl

@[simp] theorem rewritten_found (f : Match α → List α) (m : Match α) (ts : List (Token α)) :
    rewritten f (.found m :: ts) = f m ++ rewritten f ts := rfl

/-- Steps of a scan: no text is left, or nothing is found at the first character, or a match. -/
theorem scan_induction {motive : List α → List α → Prop} (nil : ∀ b, motive b [])
    (skipped : ∀ b c s, found p b (c :: s) = none → motive (c :: b) s → motive b (c :: s))
    (matched : ∀ b s m, found p b s = some m → motive (m.text.reverse ++ b) m.rest → motive b s)
    (b s : List α) : motive b s := by
  generalize hn : s.length = n
  induction n using Nat.strong_induction_on generalizing b s with
  | _ n ih =>
      cases s with
      | nil => exact nil b
      | cons c s =>
          cases hfound : Pattern.found p b (c :: s) with
          | none =>
              refine skipped b c s hfound (ih s.length ?_ _ _ rfl)
              rw [← hn, List.length_cons]
              omega
          | some m =>
              refine matched b (c :: s) m hfound (ih m.rest.length ?_ _ _ rfl)
              obtain ⟨-, hne, hs⟩ := found_eq_some hfound
              have hlength := congrArg List.length hs
              have hpos := List.length_pos_iff.mpr hne
              rw [List.length_append] at hlength
              omega

end Scan

/-! ### Scans of the images -/

theorem found_comap (f : α → β) (p : Pattern β) (b s : List α) :
    found p (b.map f) (s.map f) = (found (p.comap f) b s).map (Match.map f) := by
  rw [found, found, ← run_comap, List.find?_map]
  refine congrArg (Option.map _) (congrFun (congrArg List.find? (funext fun m => ?_)) _)
  rw [Function.comp_apply, Match.map_text, List.isEmpty_map]

def Token.map (f : α → β) : Token α → Token β
  | .skipped c => .skipped (f c)
  | .found m => .found (m.map f)

theorem scan_comap (f : α → β) (p : Pattern β) (k : ℕ) (b s : List α) :
    (scan (p.comap f) k b s).map (Token.map f) = scan p k (b.map f) (s.map f) := by
  induction s generalizing k b with
  | nil => cases k <;> rfl
  | cons c s ih =>
      cases k with
      | succ k => exact ih k (c :: b)
      | zero =>
          have hfound := found_comap f p b (c :: s)
          rw [List.map_cons] at hfound ⊢
          cases hm : found (p.comap f) b (c :: s) with
          | none =>
              rw [hm] at hfound
              rw [scan_of_not_found hm, scan_of_not_found hfound]
              exact congrArg (Token.skipped (f c) :: ·) (ih 0 (c :: b))
          | some m =>
              rw [hm] at hfound
              have hfind : ((p.comap f).run b (c :: s)).find? (fun m => !m.text.isEmpty) = some m :=
                hm
              have hfind' : (p.run (b.map f) (f c :: s.map f)).find? (fun m => !m.text.isEmpty) =
                some (m.map f) := hfound
              simp only [scan, hfind, hfind', List.map_cons]
              refine congrArg (Token.found (m.map f) :: ·) ?_
              rw [Match.map_text, List.length_map]
              exact ih _ (c :: b)

/-- The substitution on the larger alphabet maps to the one on the images. -/
theorem sub_comap {f : α → β} {p : Pattern β} {g : Match α → List α} {g' : Match β → List β}
    (h : ∀ m, (g m).map f = g' (m.map f)) (s : List α) :
    ((p.comap f).sub g s).map f = p.sub g' (s.map f) := by
  have hscan := scan_comap f p 0 [] s
  rw [List.map_nil] at hscan
  rw [sub, sub, ← hscan, List.map_flatMap, List.flatMap_map]
  refine List.flatMap_congr fun t _ => ?_
  cases t with
  | skipped c => rfl
  | found m => exact h m

/-! ### The first match -/

theorem head_flatMap {l : List α} {g : α → List β} {y : β} (h : (l.flatMap g).head? = some y) :
    ∃ x ∈ l, (g x).head? = some y := by
  induction l with
  | nil => cases h
  | cons x l ih =>
      rw [List.flatMap_cons, List.head?_append] at h
      cases hx : (g x).head? with
      | some z =>
          rw [hx] at h
          exact ⟨x, List.mem_cons_self, hx.trans h⟩
      | none =>
          rw [hx] at h
          obtain ⟨x', hmem, hx'⟩ := ih h
          exact ⟨x', List.mem_cons_of_mem x hmem, hx'⟩

/-- The second part of the first match is the first match of the second part. -/
theorem head_seq {p q : Pattern α} {b s : List α} {m : Match α}
    (h : ((seq p q).run b s).head? = some m) :
    ∃ m₁ ∈ p.run b s, ∃ m₂, (q.run (m₁.text.reverse ++ b) m₁.rest).head? = some m₂ ∧
      m = m₁.append m₂ := by
  obtain ⟨m₁, hm₁, hhead⟩ := head_flatMap h
  rw [List.head?_map] at hhead
  obtain ⟨m₂, hm₂, rfl⟩ := Option.map_eq_some_iff.mp hhead
  exact ⟨m₁, hm₁, m₂, hm₂, rfl⟩

/-- A greedy repetition of characters goes on to the first other character. -/
theorem head_star_one (p : α → Bool) (b s : List α) :
    ((star (one p)).run b s).head? = some ⟨s.takeWhile p, s.dropWhile p, []⟩ := by
  rw [run]
  generalize hn : s.length = n
  induction n generalizing b s with
  | zero =>
      rw [List.length_eq_zero_iff.mp hn]
      rfl
  | succ n ih =>
      cases s with
      | nil => cases hn
      | cons c s =>
          have hlength : s.length = n := Nat.succ.inj hn
          rw [iterate, run]
          cases hc : p c with
          | false =>
              rw [List.takeWhile_cons_of_neg (by simp [hc]),
                List.dropWhile_cons_of_neg (by simp [hc])]
              rfl
          | true =>
              have hhead := ih (c :: b) s hlength
              rw [List.takeWhile_cons_of_pos hc, List.dropWhile_cons_of_pos hc, if_pos rfl,
                List.flatMap_cons, List.head?_append, List.head?_append]
              change Option.or (Option.or ((iterate (run (one p)) n (c :: b) s).map
                (Match.append ⟨[c], s, []⟩)).head? _) _ = _
              rw [List.head?_map, hhead]
              rfl

theorem head_plus_one {p : α → Bool} {b s : List α} {m : Match α}
    (h : ((plus (one p)).run b s).head? = some m) : ∀ c ∈ m.rest.head?, p c = false := by
  obtain ⟨m₁, -, m₂, hm₂, rfl⟩ := head_seq h
  rw [head_star_one] at hm₂
  cases hm₂
  intro c hc
  have hhead := List.head?_dropWhile_not p m₁.rest
  rw [Match.append_rest] at hc
  simp only at hc
  rw [hc] at hhead
  simpa using hhead

end Pattern

end Gjallar.Regex

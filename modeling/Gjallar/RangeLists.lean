import Mathlib.Algebra.Order.BigOperators.Group.List
import Mathlib.Data.List.Sort
import Mathlib.Algebra.Order.Ring.Nat

/-!
# Lists of ranges of numbers

A list of ranges covers a set of numbers. In a normal list no range is empty and between two
ranges there is always a number that neither contains. Every covered set has one normal list, and
that list has the fewest end points of all lists that cover the set.
-/
namespace Gjallar.RangeLists

/-- A number lies in one of the ranges. -/
def Covers (rs : List (ℕ × ℕ)) (n : ℕ) : Prop := ∃ r ∈ rs, r.1 ≤ n ∧ n ≤ r.2

@[simp] theorem not_covers_nil (n : ℕ) : ¬ Covers [] n := by simp [Covers]

@[simp] theorem covers_cons {r : ℕ × ℕ} {rs : List (ℕ × ℕ)} {n : ℕ} :
    Covers (r :: rs) n ↔ (r.1 ≤ n ∧ n ≤ r.2) ∨ Covers rs n := by simp [Covers]

/-- The ranges are sorted, disjoint and not adjacent. -/
structure Normal (rs : List (ℕ × ℕ)) : Prop where
  nonempty : ∀ r ∈ rs, r.1 ≤ r.2
  apart : rs.Pairwise fun r s => r.2 + 1 < s.1

theorem normal_nil : Normal [] := ⟨by simp, .nil⟩

theorem normal_cons {r : ℕ × ℕ} {rs : List (ℕ × ℕ)} :
    Normal (r :: rs) ↔ r.1 ≤ r.2 ∧ (∀ s ∈ rs, r.2 + 1 < s.1) ∧ Normal rs := by
  constructor
  · intro h
    have hapart := List.pairwise_cons.mp h.apart
    exact ⟨h.nonempty r List.mem_cons_self, hapart.1,
      ⟨fun s hs => h.nonempty s (List.mem_cons_of_mem r hs), hapart.2⟩⟩
  · rintro ⟨hr, hfirst, hrest⟩
    exact ⟨List.forall_mem_cons.mpr ⟨hr, hrest.nonempty⟩,
      List.pairwise_cons.mpr ⟨hfirst, hrest.apart⟩⟩

section First

variable {r : ℕ × ℕ} {rs : List (ℕ × ℕ)}

/-- What the later ranges cover comes after a gap. -/
theorem Normal.lt_of_covers (h : Normal (r :: rs)) {n : ℕ} (hn : Covers rs n) : r.2 + 1 < n := by
  obtain ⟨s, hs, hlow, -⟩ := hn
  have hgap := (normal_cons.mp h).2.1 s hs
  omega

theorem Normal.first_le (h : Normal (r :: rs)) {n : ℕ} (hn : Covers (r :: rs) n) : r.1 ≤ n := by
  have hr := (normal_cons.mp h).1
  rcases covers_cons.mp hn with hfirst | hrest
  · exact hfirst.1
  · have := h.lt_of_covers hrest
    omega

theorem Normal.covers_first (h : Normal (r :: rs)) : Covers (r :: rs) r.1 :=
  covers_cons.mpr (Or.inl ⟨le_rfl, (normal_cons.mp h).1⟩)

theorem Normal.covers_last (h : Normal (r :: rs)) : Covers (r :: rs) r.2 :=
  covers_cons.mpr (Or.inl ⟨(normal_cons.mp h).1, le_rfl⟩)

theorem Normal.not_covers_succ (h : Normal (r :: rs)) : ¬ Covers (r :: rs) (r.2 + 1) := by
  intro hcover
  rcases covers_cons.mp hcover with hfirst | hrest
  · omega
  · have := h.lt_of_covers hrest
    omega

/-- The later ranges cover what lies behind the first one. -/
theorem Normal.covers_rest (h : Normal (r :: rs)) {n : ℕ} :
    Covers rs n ↔ Covers (r :: rs) n ∧ r.2 < n := by
  constructor
  · intro hn
    have := h.lt_of_covers hn
    exact ⟨covers_cons.mpr (Or.inr hn), by omega⟩
  · rintro ⟨hn, hlt⟩
    rcases covers_cons.mp hn with hfirst | hrest
    · omega
    · exact hrest

/-- The numbers from the first covered one up to a gap are the first range. -/
theorem Normal.last_le {s : ℕ × ℕ} {ss : List (ℕ × ℕ)} (hr : Normal (r :: rs))
    (hfirst : r.1 = s.1)
    (h : ∀ n, Covers (s :: ss) n → Covers (r :: rs) n) : s.2 ≤ r.2 := by
  by_contra hlt
  have hsr := (normal_cons.mp hr).1
  exact hr.not_covers_succ (h _ (covers_cons.mpr (Or.inl ⟨by omega, by omega⟩)))

end First

/-- A covered set has only one normal list. -/
theorem Normal.ext {rs ss : List (ℕ × ℕ)} (hr : Normal rs) (hs : Normal ss)
    (h : ∀ n, Covers rs n ↔ Covers ss n) : rs = ss := by
  induction rs generalizing ss with
  | nil =>
      cases ss with
      | nil => rfl
      | cons s ss => exact absurd ((h s.1).mpr hs.covers_first) (not_covers_nil s.1)
  | cons r rs ih =>
      cases ss with
      | nil => exact absurd ((h r.1).mp hr.covers_first) (not_covers_nil r.1)
      | cons s ss =>
          have hfirst : r.1 = s.1 :=
            le_antisymm (hr.first_le ((h s.1).mpr hs.covers_first))
              (hs.first_le ((h r.1).mp hr.covers_first))
          have hlast : r.2 = s.2 :=
            le_antisymm (hs.last_le hfirst.symm fun n => (h n).mp)
              (hr.last_le hfirst fun n => (h n).mpr)
          have hrest : rs = ss := by
            apply ih (normal_cons.mp hr).2.2 (normal_cons.mp hs).2.2
            intro n
            rw [hr.covers_rest, hs.covers_rest, h n, hlast]
          rw [Prod.ext hfirst hlast, hrest]

/-! ### The end points of a list -/

/-- The weight of the end points of a range; a single number has one end point. -/
def weight (f : ℕ → ℕ) (r : ℕ × ℕ) : ℕ := if r.1 = r.2 then f r.1 else f r.1 + f r.2

def totalWeight (f : ℕ → ℕ) (rs : List (ℕ × ℕ)) : ℕ := (rs.map (weight f)).sum

@[simp] theorem totalWeight_cons (f : ℕ → ℕ) (r : ℕ × ℕ) (rs : List (ℕ × ℕ)) :
    totalWeight f (r :: rs) = weight f r + totalWeight f rs := by simp [totalWeight]

theorem le_weight_first (f : ℕ → ℕ) (r : ℕ × ℕ) : f r.1 ≤ weight f r := by
  unfold weight
  split <;> omega

theorem le_weight_last (f : ℕ → ℕ) (r : ℕ × ℕ) : f r.2 ≤ weight f r := by
  unfold weight
  split
  · rename_i h
    rw [h]
  · omega

/-- The weights of the ranges that satisfy a condition and of those that do not. -/
theorem totalWeight_filter (f : ℕ → ℕ) (p : ℕ × ℕ → Bool) (rs : List (ℕ × ℕ)) :
    totalWeight f (rs.filter p) + totalWeight f (rs.filter fun r => !p r) = totalWeight f rs := by
  induction rs with
  | nil => rfl
  | cons r rs ih =>
      rw [totalWeight_cons, ← ih]
      cases hp : p r
      · simp only [List.filter_cons, hp, Bool.false_eq_true, if_false, Bool.not_false, if_true,
          totalWeight_cons]
        omega
      · simp only [List.filter_cons, hp, Bool.not_true, Bool.false_eq_true, if_false, if_true,
          totalWeight_cons]
        omega

theorem weight_le_totalWeight (f : ℕ → ℕ) {r : ℕ × ℕ} {rs : List (ℕ × ℕ)} (h : r ∈ rs) :
    weight f r ≤ totalWeight f rs :=
  List.single_le_sum (fun _ _ => Nat.zero_le _) _ (List.mem_map_of_mem h)

/-- Two different members of a list weigh at most as much as the list. -/
theorem weight_add_le_totalWeight (f : ℕ → ℕ) {r s : ℕ × ℕ} {rs : List (ℕ × ℕ)} (hr : r ∈ rs)
    (hs : s ∈ rs) (hne : r ≠ s) : weight f r + weight f s ≤ totalWeight f rs := by
  induction rs with
  | nil => simp at hr
  | cons t rs ih =>
      rw [totalWeight_cons]
      rcases List.mem_cons.mp hr with rfl | hr'
      · have hs' := (List.mem_cons.mp hs).resolve_left fun h => hne h.symm
        have := weight_le_totalWeight f hs'
        omega
      · rcases List.mem_cons.mp hs with rfl | hs'
        · have := weight_le_totalWeight f hr'
          omega
        · have := ih hr' hs'
          omega

/-- A range whose end points are end points of members weighs at most as much as the list. -/
theorem weight_le_of_ends (f : ℕ → ℕ) {r s t : ℕ × ℕ} {rs : List (ℕ × ℕ)} (hs : s ∈ rs)
    (ht : t ∈ rs) (hfirst : s.1 = r.1) (hlast : t.2 = r.2) : weight f r ≤ totalWeight f rs := by
  by_cases hne : s = t
  · have hsr : s = r := Prod.ext hfirst (by rw [hne, hlast])
    rw [← hsr]
    exact weight_le_totalWeight f hs
  · calc weight f r ≤ f s.1 + f t.2 := by
          rw [hfirst, hlast]
          unfold weight
          split <;> omega
      _ ≤ weight f s + weight f t := add_le_add (le_weight_first f s) (le_weight_last f t)
      _ ≤ totalWeight f rs := weight_add_le_totalWeight f hs ht hne

/-- The normal list of a set weighs the least. -/
theorem Normal.totalWeight_le (f : ℕ → ℕ) {rs bs : List (ℕ × ℕ)} (hr : Normal rs)
    (hb : ∀ b ∈ bs, b.1 ≤ b.2) (h : ∀ n, Covers rs n ↔ Covers bs n) :
    totalWeight f rs ≤ totalWeight f bs := by
  induction rs generalizing bs with
  | nil => exact Nat.zero_le _
  | cons r rs ih =>
      -- every range of the other list lies within the first normal range or behind the gap
      have hside : ∀ b ∈ bs, b.2 ≤ r.2 ∨ r.2 + 1 < b.1 := by
        intro b hbs
        by_contra hcross
        rw [not_or] at hcross
        have hgap : ¬ Covers bs (r.2 + 1) := fun hc => hr.not_covers_succ ((h _).mpr hc)
        exact hgap ⟨b, hbs, by omega, by omega⟩
      set inside := bs.filter fun b => decide (b.2 ≤ r.2) with hinside
      set behind := bs.filter fun b => !decide (b.2 ≤ r.2) with hbehind
      have hrest : totalWeight f rs ≤ totalWeight f behind := by
        apply ih (normal_cons.mp hr).2.2
        · exact fun b hbs => hb b (List.mem_of_mem_filter hbs)
        · intro n
          rw [hr.covers_rest, h n]
          constructor
          · rintro ⟨⟨b, hbs, hlow, hhigh⟩, hlt⟩
            exact ⟨b, by simp [hbehind, hbs]; omega, hlow, hhigh⟩
          · rintro ⟨b, hbs, hlow, hhigh⟩
            simp only [hbehind, List.mem_filter, Bool.not_eq_true', decide_eq_false_iff_not,
              not_le] at hbs
            have := hside b hbs.1
            exact ⟨⟨b, hbs.1, hlow, hhigh⟩, by omega⟩
      have hfirst : weight f r ≤ totalWeight f inside := by
        obtain ⟨s, hs, hslow, hshigh⟩ := (h r.1).mp hr.covers_first
        obtain ⟨t, ht, htlow, hthigh⟩ := (h r.2).mp hr.covers_last
        have hrr := (normal_cons.mp hr).1
        have hsfirst : r.1 ≤ s.1 := hr.first_le ((h _).mpr ⟨s, hs, le_rfl, hb s hs⟩)
        have hslast := hside s hs
        have htlast := hside t ht
        exact weight_le_of_ends f (s := s) (t := t) (by simp [hinside, hs]; omega)
          (by simp [hinside, ht]; omega) (by omega) (by omega)
      have hsplit : totalWeight f inside + totalWeight f behind = totalWeight f bs :=
        totalWeight_filter f (fun b => decide (b.2 ≤ r.2)) bs
      rw [totalWeight_cons]
      omega

end Gjallar.RangeLists

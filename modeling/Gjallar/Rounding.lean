import Mathlib.Algebra.Order.Floor.Ring
import Mathlib.Data.Rat.Floor
import Mathlib.Tactic.Linarith

/-!
# Rounding to the nearest, ties to even
-/
namespace Gjallar.Rounding

/-- The nearest integer, of two the even one. -/
def halfEven (q : ℚ) : ℤ :=
  let n := ⌊q⌋
  if q - n < 1 / 2 then n
  else if 1 / 2 < q - n then n + 1
  else if n % 2 = 0 then n
  else n + 1

/-- The nearest decimal with the given number of places. -/
def roundTo (places : ℕ) (q : ℚ) : ℚ := halfEven (q * 10 ^ places) / 10 ^ places

/-- The floor, when it is not farther away, or the next integer. -/
theorem halfEven_cases (q : ℚ) : (halfEven q = ⌊q⌋ ∧ q - ⌊q⌋ ≤ 1 / 2) ∨
    (halfEven q = ⌊q⌋ + 1 ∧ 1 / 2 ≤ q - ⌊q⌋) := by
  unfold halfEven
  dsimp only
  split
  · rename_i h
    exact .inl ⟨rfl, h.le⟩
  · rename_i h
    split
    · rename_i h'
      exact .inr ⟨rfl, h'.le⟩
    · rename_i h'
      split
      · exact .inl ⟨rfl, not_lt.mp h'⟩
      · exact .inr ⟨rfl, not_lt.mp h⟩

theorem abs_halfEven_sub_le_half (q : ℚ) : |(halfEven q : ℚ) - q| ≤ 1 / 2 := by
  have hfloor := Int.floor_le q
  have hlt := Int.lt_floor_add_one q
  rcases halfEven_cases q with ⟨h, hle⟩ | ⟨h, hle⟩
  · rw [h, abs_le]
    constructor <;> linarith
  · rw [h, abs_le]
    push_cast
    constructor <;> linarith

/-- No integer is nearer. -/
theorem abs_halfEven_sub_le (q : ℚ) (k : ℤ) : |(halfEven q : ℚ) - q| ≤ |(k : ℚ) - q| := by
  have hfloor := Int.floor_le q
  have hlt := Int.lt_floor_add_one q
  have hk : (k : ℚ) ≤ ⌊q⌋ ∨ (⌊q⌋ : ℚ) + 1 ≤ k := by
    rcases le_or_gt k ⌊q⌋ with h | h
    · exact .inl (by exact_mod_cast h)
    · exact .inr (by exact_mod_cast h)
  rcases halfEven_cases q with ⟨h, hle⟩ | ⟨h, hle⟩ <;> rcases hk with hk | hk
  · rw [h, abs_of_nonpos (by linarith), abs_of_nonpos (by linarith)]
    linarith
  · rw [h, abs_of_nonpos (by linarith), abs_of_nonneg (by linarith)]
    linarith
  · rw [h, abs_of_nonneg (by push_cast; linarith), abs_of_nonpos (by linarith)]
    push_cast
    linarith
  · rw [h, abs_of_nonneg (by push_cast; linarith), abs_of_nonneg (by linarith)]
    push_cast
    linarith

@[simp] theorem halfEven_intCast (n : ℤ) : halfEven n = n := by
  have h := abs_halfEven_sub_le n n
  rw [sub_self, abs_zero] at h
  have hzero := abs_eq_zero.mp (le_antisymm h (abs_nonneg _))
  exact_mod_cast sub_eq_zero.mp hzero

/-- A number that is less than half below an integer is not rounded below it. -/
theorem le_halfEven {q : ℚ} {n : ℤ} (h : n - 1 / 2 < q) : n ≤ halfEven q := by
  have habs := abs_le.mp (abs_halfEven_sub_le_half q)
  have hlt : (n : ℚ) - 1 < halfEven q := by linarith [habs.1]
  have hint : n - 1 < halfEven q := by exact_mod_cast hlt
  omega

theorem halfEven_le {q : ℚ} {n : ℤ} (h : q < n + 1 / 2) : halfEven q ≤ n := by
  have habs := abs_le.mp (abs_halfEven_sub_le_half q)
  have hlt : (halfEven q : ℚ) < n + 1 := by linarith [habs.2]
  have hint : halfEven q < n + 1 := by exact_mod_cast hlt
  omega

/-- A number half below an even integer is rounded to it. -/
theorem le_halfEven_of_even {q : ℚ} {n : ℤ} (hn : n % 2 = 0) (h : n - 1 / 2 ≤ q) :
    n ≤ halfEven q := by
  rcases h.lt_or_eq with hlt | heq
  · exact le_halfEven hlt
  · have hfloor : ⌊q⌋ = n - 1 := by
      rw [Int.floor_eq_iff, ← heq]
      push_cast
      constructor <;> linarith
    have hhalf : q - ((n - 1 : ℤ) : ℚ) = 1 / 2 := by
      rw [← heq]
      push_cast
      ring
    have hodd : ¬ (n - 1) % 2 = 0 := by omega
    unfold halfEven
    dsimp only
    rw [hfloor, hhalf, if_neg (lt_irrefl _), if_neg (lt_irrefl _), if_neg hodd]
    omega

theorem halfEven_nonneg {q : ℚ} (h : 0 ≤ q) : 0 ≤ halfEven q :=
  le_halfEven (by push_cast; linarith)

end Gjallar.Rounding

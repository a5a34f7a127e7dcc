import Gjallar.Rounding
import Mathlib.Algebra.Order.Field.Rat
import Mathlib.Data.Int.Log
import Mathlib.Data.Nat.Prime.Int
import Mathlib.Tactic.FieldSimp
import Mathlib.Tactic.Ring

/-!
# Doubles

The nonnegative numbers of the binary64 format as rationals, the conversion of a number to the
nearest double, ties to even, and the rounding of a double to a number of decimals.
-/
namespace Gjallar.Binary64

open Gjallar.Rounding

/-- A significand of 53 bits and an exponent. The format has no larger exponent than 971, so that
larger numbers of this form overflow. -/
def IsDouble (q : ℚ) : Prop := ∃ (m : ℕ) (e : ℤ), m ≤ 2 ^ 53 ∧ -1074 ≤ e ∧ q = m * 2 ^ e

/-- The exponent of the last bit of the double nearest to a number. -/
def lastBit (q : ℚ) : ℤ := max (Int.log 2 q - 52) (-1074)

/-- The nearest double, however large. -/
def nearest (q : ℚ) : ℚ := halfEven (q / 2 ^ lastBit q) * 2 ^ lastBit q

/-- A double, or the infinity. -/
abbrev Double := WithTop ℚ

/-- The smallest number that overflows after its rounding. -/
def limit : ℚ := 2 ^ 1024

/-- The conversion of a number to a double; too large ones overflow to the infinity. -/
def toDouble (q : ℚ) : Double := if nearest q < limit then (nearest q : ℚ) else ⊤

/-- The rounding of a double to a number of decimals; the infinity stays. -/
def roundDouble (places : ℕ) : Double → Double
  | some q => (nearest (roundTo places q) : ℚ)
  | none => ⊤

theorem two_zpow_pos (e : ℤ) : (0 : ℚ) < 2 ^ e := zpow_pos (by norm_num) e

/-! ### The nearest double -/

theorem lt_of_lastBit (q : ℚ) : q / 2 ^ lastBit q < 2 ^ 53 := by
  rw [div_lt_iff₀ (two_zpow_pos _)]
  have hlog : q < 2 ^ (Int.log 2 q + 1) := by
    have h := Int.lt_zpow_succ_log_self (b := 2) (by norm_num) q
    exact_mod_cast h
  refine hlog.trans_le ?_
  have hpow : (2 : ℚ) ^ 53 * 2 ^ lastBit q = 2 ^ (53 + lastBit q) := by
    rw [zpow_add₀ (by norm_num)]
    norm_num
  rw [hpow]
  refine zpow_le_zpow_right₀ (by norm_num) ?_
  have := le_max_left (Int.log 2 q - 52) (-1074)
  unfold lastBit
  omega

theorem isDouble_nearest {q : ℚ} (hq : 0 ≤ q) : IsDouble (nearest q) := by
  have hnonneg : 0 ≤ q / 2 ^ lastBit q := div_nonneg hq (two_zpow_pos _).le
  have hle : halfEven (q / 2 ^ lastBit q) ≤ 2 ^ 53 := by
    refine halfEven_le ((lt_of_lastBit q).trans ?_)
    norm_num
  obtain ⟨m, hm⟩ := Int.eq_ofNat_of_zero_le (halfEven_nonneg hnonneg)
  refine ⟨m, lastBit q, ?_, le_max_right _ _, ?_⟩
  · rw [hm] at hle
    exact_mod_cast hle
  · rw [nearest, hm]
    norm_cast

theorem abs_nearest_sub (q : ℚ) : |nearest q - q| =
    |(halfEven (q / 2 ^ lastBit q) : ℚ) - q / 2 ^ lastBit q| * 2 ^ lastBit q := by
  have hpos := two_zpow_pos (lastBit q)
  rw [← abs_of_pos hpos, ← abs_mul, abs_of_pos hpos, sub_mul, div_mul_cancel₀ _ hpos.ne', nearest]

/-- No integer multiple of the last bit is nearer. -/
theorem abs_nearest_sub_le (q : ℚ) (k : ℤ) :
    |nearest q - q| ≤ |(k : ℚ) * 2 ^ lastBit q - q| := by
  have hpos := two_zpow_pos (lastBit q)
  rw [abs_nearest_sub]
  have hk : |(k : ℚ) * 2 ^ lastBit q - q| = |(k : ℚ) - q / 2 ^ lastBit q| * 2 ^ lastBit q := by
    rw [← abs_of_pos hpos, ← abs_mul, abs_of_pos hpos, sub_mul, div_mul_cancel₀ _ hpos.ne']
  rw [hk]
  exact mul_le_mul_of_nonneg_right (abs_halfEven_sub_le _ k) hpos.le

@[simp] theorem nearest_zero : nearest 0 = 0 := by
  have h : halfEven 0 = 0 := by exact_mod_cast halfEven_intCast 0
  rw [nearest, zero_div, h, Int.cast_zero, zero_mul]

/-- No double is nearer. -/
theorem nearest_closest {q d : ℚ} (hq : 0 ≤ q) (hd : IsDouble d) : |nearest q - q| ≤ |d - q| := by
  rcases hq.eq_or_lt with rfl | hpos
  · rw [nearest_zero, sub_self, abs_zero]
    exact abs_nonneg _
  obtain ⟨m, e, hm, he, rfl⟩ := hd
  rcases le_or_gt (lastBit q) e with hle | hlt
  · -- a double with a larger exponent is a multiple of the last bit
    have hmultiple : (m : ℚ) * 2 ^ e =
        ((m * 2 ^ (e - lastBit q).toNat : ℤ) : ℚ) * 2 ^ lastBit q := by
      have hsplit : (2 : ℚ) ^ e = 2 ^ (e - lastBit q).toNat * 2 ^ lastBit q := by
        rw [← zpow_natCast, ← zpow_add₀ (by norm_num), Int.toNat_of_nonneg (by omega)]
        congr 1
        omega
      rw [hsplit]
      push_cast
      ring
    rw [hmultiple]
    exact abs_nearest_sub_le q _
  · -- one with a smaller exponent lies below the power of two below the number
    have hnormal : lastBit q = Int.log 2 q - 52 := by
      unfold lastBit at hlt ⊢
      omega
    have hpower : (2 : ℚ) ^ 52 * 2 ^ lastBit q = 2 ^ Int.log 2 q := by
      rw [hnormal, ← zpow_natCast, ← zpow_add₀ (by norm_num)]
      congr 1
      push_cast
      ring
    have hq : (2 : ℚ) ^ Int.log 2 q ≤ q := by
      have h := Int.zpow_log_le_self (b := 2) (by norm_num) hpos
      exact_mod_cast h
    have hd : (m : ℚ) * 2 ^ e ≤ 2 ^ 52 * 2 ^ lastBit q := by
      have hm' : (m : ℚ) ≤ 2 ^ 53 := by exact_mod_cast hm
      have he' : (2 : ℚ) ^ (e + 1) ≤ 2 ^ lastBit q :=
        zpow_le_zpow_right₀ (by norm_num) (by omega)
      rw [zpow_add₀ (by norm_num), zpow_one] at he'
      calc (m : ℚ) * 2 ^ e ≤ 2 ^ 53 * 2 ^ e :=
            mul_le_mul_of_nonneg_right hm' (two_zpow_pos e).le
        _ = 2 ^ 52 * (2 ^ e * 2) := by ring
        _ ≤ 2 ^ 52 * 2 ^ lastBit q := mul_le_mul_of_nonneg_left he' (by norm_num)
    have hbelow : |nearest q - q| ≤ |(2 : ℚ) ^ 52 * 2 ^ lastBit q - q| := by
      have h := abs_nearest_sub_le q (2 ^ 52)
      rwa [Int.cast_pow, Int.cast_ofNat] at h
    rw [abs_of_nonpos (by linarith : (2 : ℚ) ^ 52 * 2 ^ lastBit q - q ≤ 0)] at hbelow
    rw [abs_of_nonpos (by linarith : (m : ℚ) * 2 ^ e - q ≤ 0)]
    linarith

theorem IsDouble.nonneg {d : ℚ} (h : IsDouble d) : 0 ≤ d := by
  obtain ⟨m, e, -, -, rfl⟩ := h
  exact mul_nonneg m.cast_nonneg (two_zpow_pos e).le

theorem nearest_nonneg {q : ℚ} (hq : 0 ≤ q) : 0 ≤ nearest q := (isDouble_nearest hq).nonneg

@[simp] theorem nearest_of_isDouble {d : ℚ} (h : IsDouble d) : nearest d = d := by
  have hle := nearest_closest h.nonneg h
  rw [sub_self, abs_zero] at hle
  exact sub_eq_zero.mp (abs_eq_zero.mp (le_antisymm hle (abs_nonneg _)))

theorem nearest_mono {p q : ℚ} (hp : 0 ≤ p) (h : p ≤ q) : nearest p ≤ nearest q := by
  by_contra hlt
  rw [not_le] at hlt
  -- both lie in the middle between the two doubles, so they are equal
  have hpq := nearest_closest hp (isDouble_nearest (hp.trans h))
  have hqp := nearest_closest (hp.trans h) (isDouble_nearest hp)
  have hmid : ∀ x, |nearest p - x| ≤ |nearest q - x| → nearest p + nearest q ≤ 2 * x := by
    intro x hx
    by_contra hgt
    rcases abs_cases (nearest p - x) with ⟨ha, ha'⟩ | ⟨ha, ha'⟩ <;>
      rcases abs_cases (nearest q - x) with ⟨hb, hb'⟩ | ⟨hb, hb'⟩ <;> linarith
  have hmid' : ∀ x, |nearest q - x| ≤ |nearest p - x| → 2 * x ≤ nearest p + nearest q := by
    intro x hx
    by_contra hgt
    rcases abs_cases (nearest p - x) with ⟨ha, ha'⟩ | ⟨ha, ha'⟩ <;>
      rcases abs_cases (nearest q - x) with ⟨hb, hb'⟩ | ⟨hb, hb'⟩ <;> linarith
  have heq : p = q := le_antisymm h (by linarith [hmid p hpq, hmid' q hqp])
  rw [heq] at hlt
  exact lt_irrefl _ hlt

/-! ### Scaling -/

theorem log_mul_zpow {q : ℚ} (hq : 0 < q) (k : ℤ) : Int.log 2 (q * 2 ^ k) = Int.log 2 q + k := by
  have hpos : 0 < q * 2 ^ k := mul_pos hq (two_zpow_pos k)
  have hle : ∀ (x : ℤ) {r : ℚ}, 0 < r → ((2 : ℚ) ^ x ≤ r ↔ x ≤ Int.log 2 r) := by
    intro x r hr
    have h := Int.zpow_le_iff_le_log (b := 2) (by norm_num) (x := x) hr
    exact_mod_cast h
  refine eq_of_forall_le_iff fun x => ?_
  rw [← hle x hpos, ← sub_le_iff_le_add, ← hle (x - k) hq, zpow_sub₀ (by norm_num),
    div_le_iff₀ (two_zpow_pos k)]

/-- A number that is not subnormal. -/
def IsNormal (q : ℚ) : Prop := 2 ^ (-1022 : ℤ) ≤ q

theorem lastBit_of_isNormal {q : ℚ} (h : IsNormal q) : lastBit q = Int.log 2 q - 52 := by
  have hq : 0 < q := (two_zpow_pos _).trans_le h
  have hlog : -1022 ≤ Int.log 2 q := by
    have hle := Int.zpow_le_iff_le_log (b := 2) (by norm_num) (x := -1022) hq
    exact hle.mp (by exact_mod_cast h)
  unfold lastBit
  omega

/-- The rounding of a number commutes with its scaling. -/
theorem nearest_mul_zpow {q : ℚ} {k : ℤ} (hq : IsNormal q) (hk : IsNormal (q * 2 ^ k)) :
    nearest (q * 2 ^ k) = nearest q * 2 ^ k := by
  have hpos : 0 < q := (two_zpow_pos _).trans_le hq
  have hbit : lastBit (q * 2 ^ k) = lastBit q + k := by
    rw [lastBit_of_isNormal hk, lastBit_of_isNormal hq, log_mul_zpow hpos]
    ring
  have hdiv : q * 2 ^ k / (2 ^ lastBit q * 2 ^ k) = q / 2 ^ lastBit q :=
    mul_div_mul_right _ _ (two_zpow_pos k).ne'
  rw [nearest, nearest, hbit, zpow_add₀ (by norm_num), hdiv, mul_assoc]

theorem IsDouble.scale {d : ℚ} {k : ℤ} (h : IsDouble d) (hlow : 2 ^ (-1000 : ℤ) ≤ d * 2 ^ k) :
    IsDouble (d * 2 ^ k) := by
  obtain ⟨m, e, hm, he, rfl⟩ := h
  have heq : (m : ℚ) * 2 ^ e * 2 ^ k = m * 2 ^ (e + k) := by
    rw [zpow_add₀ (by norm_num), mul_assoc]
  rw [heq] at hlow ⊢
  refine ⟨m, e + k, hm, ?_, rfl⟩
  have hm' : (m : ℚ) ≤ 2 ^ (53 : ℤ) := by exact_mod_cast hm
  have hle : (2 : ℚ) ^ (-1000 : ℤ) ≤ 2 ^ (53 + (e + k)) := by
    rw [zpow_add₀ (by norm_num)]
    exact hlow.trans (mul_le_mul_of_nonneg_right hm' (two_zpow_pos _).le)
  have := (zpow_le_zpow_iff_right₀ (by norm_num : (1 : ℚ) < 2)).mp hle
  omega

/-! ### Integers -/

theorem isDouble_natCast {n : ℕ} (h : n ≤ 2 ^ 53) : IsDouble n :=
  ⟨n, 0, h, by norm_num, by rw [zpow_zero, mul_one]⟩

theorem exists_nearest_natCast (n : ℕ) : ∃ m : ℕ, nearest n = m := by
  rcases le_or_gt n (2 ^ 53) with h | h
  · exact ⟨n, nearest_of_isDouble (isDouble_natCast h)⟩
  · have hn : (0 : ℚ) < n := by exact_mod_cast (Nat.zero_le _).trans_lt h
    have hlog : 53 ≤ Int.log 2 (n : ℚ) := by
      have hle := Int.zpow_le_iff_le_log (b := 2) (by norm_num) (x := 53) hn
      exact hle.mp (by exact_mod_cast h.le)
    have hbit : lastBit n = ((Int.log 2 (n : ℚ) - 52).toNat : ℤ) := by
      unfold lastBit
      omega
    obtain ⟨m, hm⟩ := Int.eq_ofNat_of_zero_le
      (halfEven_nonneg (div_nonneg hn.le (two_zpow_pos (lastBit n)).le))
    refine ⟨m * 2 ^ (Int.log 2 (n : ℚ) - 52).toNat, ?_⟩
    rw [nearest, hm, hbit, zpow_natCast]
    push_cast
    rfl

/-! ### Distances -/

theorem abs_nearest_sub_le_of_isNormal {q : ℚ} (h : IsNormal q) : |nearest q - q| ≤ q / 2 ^ 53 := by
  have hq : 0 < q := (two_zpow_pos _).trans_le h
  have hpower : (2 : ℚ) ^ 52 * 2 ^ lastBit q ≤ q := by
    rw [lastBit_of_isNormal h, ← zpow_natCast, ← zpow_add₀ (by norm_num)]
    have hle := Int.zpow_log_le_self (b := 2) (by norm_num) hq
    have hcast : (2 : ℚ) ^ Int.log 2 q ≤ q := by exact_mod_cast hle
    convert hcast using 2
    push_cast
    ring
  rw [abs_nearest_sub, le_div_iff₀ (by norm_num)]
  have hhalf := mul_le_mul_of_nonneg_right (abs_halfEven_sub_le_half (q / 2 ^ lastBit q))
    (two_zpow_pos (lastBit q)).le
  linarith

/-- Two doubles are an integer number of the smaller last bit apart. -/
theorem IsDouble.le_gap {x y : ℚ} (hx : IsDouble x) (hy : IsDouble y) (hne : x ≠ y) :
    x ≤ (2 ^ 53 + 1) * |x - y| := by
  obtain ⟨m, e, hm, -, rfl⟩ := hx
  obtain ⟨n, f, hn, -, rfl⟩ := hy
  have hm' : (m : ℚ) ≤ 2 ^ 53 := by exact_mod_cast hm
  have hn' : (n : ℚ) ≤ 2 ^ 53 := by exact_mod_cast hn
  have hapart : ∀ {a b : ℕ} {g h : ℤ}, g ≤ h → (a : ℚ) * 2 ^ g ≠ b * 2 ^ h →
      (2 : ℚ) ^ g ≤ |(a : ℚ) * 2 ^ g - b * 2 ^ h| := by
    intro a b g h hle hne
    have hsplit : (2 : ℚ) ^ h = 2 ^ (h - g).toNat * 2 ^ g := by
      rw [← zpow_natCast, ← zpow_add₀ (by norm_num), Int.toNat_of_nonneg (by omega)]
      congr 1
      omega
    have hdiff : (a : ℚ) * 2 ^ g - b * 2 ^ h =
        ((a - b * 2 ^ (h - g).toNat : ℤ) : ℚ) * 2 ^ g := by
      rw [hsplit]
      push_cast
      ring
    have hnonzero : (a : ℤ) - b * 2 ^ (h - g).toNat ≠ 0 := by
      intro hzero
      rw [hzero, Int.cast_zero, zero_mul, sub_eq_zero] at hdiff
      exact hne hdiff
    have hone : (1 : ℚ) ≤ |((a - b * 2 ^ (h - g).toNat : ℤ) : ℚ)| := by
      exact_mod_cast Int.one_le_abs hnonzero
    rw [hdiff, abs_mul, abs_of_pos (two_zpow_pos g)]
    exact le_mul_of_one_le_left (two_zpow_pos g).le hone
  rcases le_total e f with hef | hfe
  · have hbit := hapart hef hne
    calc (m : ℚ) * 2 ^ e ≤ 2 ^ 53 * 2 ^ e :=
          mul_le_mul_of_nonneg_right hm' (two_zpow_pos e).le
      _ ≤ 2 ^ 53 * |(m : ℚ) * 2 ^ e - n * 2 ^ f| :=
          mul_le_mul_of_nonneg_left hbit (by norm_num)
      _ ≤ (2 ^ 53 + 1) * |(m : ℚ) * 2 ^ e - n * 2 ^ f| :=
          mul_le_mul_of_nonneg_right (by norm_num) (abs_nonneg _)
  · have hbit := hapart hfe hne.symm
    rw [abs_sub_comm] at hbit
    have hy : (n : ℚ) * 2 ^ f ≤ 2 ^ 53 * |(m : ℚ) * 2 ^ e - n * 2 ^ f| :=
      (mul_le_mul_of_nonneg_right hn' (two_zpow_pos f).le).trans
        (mul_le_mul_of_nonneg_left hbit (by norm_num))
    have habs := le_abs_self ((m : ℚ) * 2 ^ e - n * 2 ^ f)
    linarith

/-- A number very near to a double is rounded to it. -/
theorem nearest_of_close {q d : ℚ} (hq : 0 ≤ q) (hd : IsDouble d) (hpos : 0 < d)
    (h : |q - d| ≤ d / 2 ^ 60) : nearest q = d := by
  by_contra hne
  have hgap := hd.le_gap (isDouble_nearest hq) (Ne.symm hne)
  have hclose := nearest_closest hq hd
  have htriangle : |d - nearest q| ≤ |d - q| + |q - nearest q| := abs_sub_le _ _ _
  rw [abs_sub_comm (nearest q) q] at hclose
  rw [abs_sub_comm q d] at h
  rw [le_div_iff₀ (by norm_num)] at h
  nlinarith

/-- Two doubles are never a hundredth apart. -/
theorem IsDouble.sub_ne_hundredth {x y : ℚ} (hx : IsDouble x) (hy : IsDouble y) :
    x - y ≠ 1 / 100 := by
  obtain ⟨m, e, -, he, rfl⟩ := hx
  obtain ⟨n, f, -, hf, rfl⟩ := hy
  intro h
  have hscale : ∀ {g : ℤ}, -1074 ≤ g → (2 : ℚ) ^ g * 2 ^ 1074 = 2 ^ (g + 1074).toNat := by
    intro g hg
    rw [← zpow_natCast, ← zpow_natCast, ← zpow_add₀ (by norm_num), Int.toNat_of_nonneg (by omega)]
    rfl
  have hint : ((m * 2 ^ (e + 1074).toNat - n * 2 ^ (f + 1074).toNat : ℤ) : ℚ) * 100 =
      2 ^ 1074 := by
    push_cast
    rw [← hscale he, ← hscale hf, ← mul_assoc, ← mul_assoc, ← sub_mul, h]
    generalize (2 : ℚ) ^ 1074 = c
    ring
  have hcast : (m * 2 ^ (e + 1074).toNat - n * 2 ^ (f + 1074).toNat : ℤ) * 100 = 2 ^ 1074 := by
    refine Int.cast_injective (α := ℚ) ?_
    rw [Int.cast_mul, Int.cast_pow]
    exact hint
  have hdvd : (5 : ℤ) ∣ 2 ^ 1074 := by
    rw [← hcast]
    exact Dvd.dvd.mul_left (by norm_num) _
  have hprime : Prime (5 : ℤ) := Nat.prime_iff_prime_int.mp Nat.prime_five
  exact absurd (hprime.dvd_of_dvd_pow hdvd) (by decide)

/-! ### Rounding to decimals -/

theorem IsDouble.roundTo_nonneg {x : ℚ} (hx : IsDouble x) : 0 ≤ roundTo 2 x := by
  have h := halfEven_nonneg (q := x * 10 ^ 2) (mul_nonneg hx.nonneg (by norm_num))
  exact div_nonneg (by exact_mod_cast h) (by norm_num)

theorem abs_roundTo_sub_le (x : ℚ) : |roundTo 2 x - x| ≤ 1 / 200 := by
  have hpow : (10 : ℚ) ^ 2 = 100 := by norm_num
  have habs := abs_halfEven_sub_le_half (x * 10 ^ 2)
  rw [roundTo, hpow] at *
  rw [abs_le] at *
  constructor <;> linarith

/-- A double is rounded to at least an integer that is a double exactly when it is not more than
half a hundredth below. -/
theorem le_nearest_roundTo_iff {n : ℕ} {x : ℚ} (hn : IsDouble n) (hx : IsDouble x) :
    (n : ℚ) ≤ nearest (roundTo 2 x) ↔ (n : ℚ) - 1 / 200 ≤ x := by
  have hhundred : ((100 * n : ℤ) : ℚ) = 100 * n := by push_cast; ring
  have hpow : (10 : ℚ) ^ 2 = 100 := by norm_num
  constructor
  · intro h
    by_contra hlt
    rw [not_le] at hlt
    -- the rounding is a hundredth below the integer, farther than from the double itself
    have hle : halfEven (x * 10 ^ 2) ≤ 100 * n - 1 :=
      halfEven_le (by push_cast; rw [hpow]; linarith)
    have hcast : (halfEven (x * 10 ^ 2) : ℚ) ≤ 100 * n - 1 := by exact_mod_cast hle
    have hbelow : roundTo 2 x ≤ n - 1 / 100 := by
      rw [roundTo, hpow, div_le_iff₀ (by norm_num)]
      rw [hpow] at hcast
      linarith
    have hclose := (nearest_closest hx.roundTo_nonneg hx).trans
      ((abs_sub_comm _ _).trans_le (abs_roundTo_sub_le x))
    have habs := le_abs_self (nearest (roundTo 2 x) - roundTo 2 x)
    linarith
  · intro h
    have hle : 100 * (n : ℤ) ≤ halfEven (x * 10 ^ 2) :=
      le_halfEven_of_even (by omega) (by push_cast; rw [hpow]; linarith)
    have hcast : 100 * (n : ℚ) ≤ halfEven (x * 10 ^ 2) := by exact_mod_cast hle
    have hge : (n : ℚ) ≤ roundTo 2 x := by
      rw [roundTo, hpow, le_div_iff₀ (by norm_num)]
      rw [hpow] at hcast
      linarith
    calc (n : ℚ) = nearest n := (nearest_of_isDouble hn).symm
      _ ≤ nearest (roundTo 2 x) := nearest_mono hn.nonneg hge

/-- Rounding twice is rounding once. -/
theorem nearest_roundTo_idem {x : ℚ} (hx : IsDouble x) :
    nearest (roundTo 2 (nearest (roundTo 2 x))) = nearest (roundTo 2 x) := by
  have hpow : (10 : ℚ) ^ 2 = 100 := by norm_num
  rcases eq_or_ne (nearest (roundTo 2 x)) x with heq | hne
  · rw [heq, heq]
  have hy := isDouble_nearest hx.roundTo_nonneg
  have hnear : |x - roundTo 2 x| ≤ 1 / 200 :=
    (abs_sub_comm _ _).trans_le (abs_roundTo_sub_le x)
  have hclose := (nearest_closest hx.roundTo_nonneg hx).trans hnear
  -- a tie would put the two doubles a hundredth apart
  have hstrict : |nearest (roundTo 2 x) - roundTo 2 x| < 1 / 200 := by
    refine lt_of_le_of_ne hclose fun htie => ?_
    have htie' : |x - roundTo 2 x| = 1 / 200 :=
      le_antisymm hnear (htie ▸ nearest_closest hx.roundTo_nonneg hx)
    rcases abs_cases (nearest (roundTo 2 x) - roundTo 2 x) with ⟨ha, -⟩ | ⟨ha, -⟩ <;>
      rcases abs_cases (x - roundTo 2 x) with ⟨hb, -⟩ | ⟨hb, -⟩
    · exact hne (by linarith)
    · exact hy.sub_ne_hundredth hx (by linarith)
    · exact hx.sub_ne_hundredth hy (by linarith)
    · exact hne (by linarith)
  have hagain : roundTo 2 (nearest (roundTo 2 x)) = roundTo 2 x := by
    have hmul : roundTo 2 x * 100 = halfEven (x * 10 ^ 2) := by
      rw [roundTo, hpow, div_mul_cancel₀ _ (by norm_num)]
    rw [abs_lt] at hstrict
    have hsame : halfEven (nearest (roundTo 2 x) * 10 ^ 2) = halfEven (x * 10 ^ 2) := by
      refine le_antisymm (halfEven_le ?_) (le_halfEven ?_)
      · rw [← hmul, hpow]
        linarith
      · rw [← hmul, hpow]
        linarith
    rw [roundTo, hsame, ← roundTo]
  rw [hagain]

/-- The double next to an integer of 53 bits or more is an integer, which the rounding keeps. -/
theorem nearest_roundTo_lt_limit {x : ℚ} (hx : IsDouble x) (h : x < limit) :
    nearest (roundTo 2 x) < limit := by
  rcases lt_or_ge x (2 ^ 53) with hsmall | hlarge
  · have habs := abs_le.mp (abs_roundTo_sub_le x)
    have hle : roundTo 2 x ≤ ((2 ^ 60 : ℕ) : ℚ) := by
      norm_num at hsmall habs ⊢
      linarith
    have hdouble : IsDouble ((2 ^ 60 : ℕ) : ℚ) :=
      ⟨1, 60, by norm_num, by norm_num, by norm_num⟩
    calc nearest (roundTo 2 x) ≤ nearest ((2 ^ 60 : ℕ) : ℚ) := nearest_mono hx.roundTo_nonneg hle
      _ = 2 ^ 60 := by
          rw [nearest_of_isDouble hdouble]
          norm_num
      _ < 2 ^ 1024 := pow_lt_pow_right₀ (by norm_num) (by norm_num)
  · have hint : ∃ n : ℤ, x = n := by
      obtain ⟨m, e, hm, -, rfl⟩ := hx
      have he : 0 ≤ e := by
        by_contra hneg
        have hm' : (m : ℚ) ≤ 2 ^ 53 := by exact_mod_cast hm
        have hfactor : (2 : ℚ) ^ e < 1 := zpow_lt_one_of_neg₀ (by norm_num) (not_le.mp hneg)
        have hpos := two_zpow_pos e
        nlinarith
      obtain ⟨k, rfl⟩ := Int.eq_ofNat_of_zero_le he
      exact ⟨m * 2 ^ k, by push_cast; rw [zpow_natCast]⟩
    obtain ⟨n, rfl⟩ := hint
    have hscaled : (n : ℚ) * 10 ^ 2 = ((n * 100 : ℤ) : ℚ) := by push_cast; norm_num
    have hround : roundTo 2 (n : ℚ) = n := by
      rw [roundTo, hscaled, halfEven_intCast]
      push_cast
      norm_num
    rw [hround, nearest_of_isDouble hx]
    exact h

end Gjallar.Binary64

import Gjallar.DiskResize

/-!
# Size texts

A size as the hypervisor writes it, and what the two parsers read of it.
-/
namespace Gjallar.DiskResize

open Gjallar.Text Gjallar.TextLines Gjallar.Data Gjallar.FloatText Gjallar.Regex
  Gjallar.Regex.Pattern Gjallar.Rounding Gjallar.Binary64

/-- Decimal digits, perhaps with a fraction, and a unit or none. -/
structure SizeText where
  whole : Str
  fraction : Str
  unit : Option Char
  whole_ne_nil : whole ≠ []
  whole_digits : ∀ c ∈ whole, isAsciiDigit c = true
  fraction_digits : ∀ c ∈ fraction, isAsciiDigit c = true
  unit_mem : ∀ c ∈ unit, c ∈ ("KMGTPkmgtp" : Str)

namespace SizeText

def amountText (size : SizeText) : Str :=
  size.whole ++ if size.fraction = [] then [] else '.' :: size.fraction

def text (size : SizeText) : Str := size.amountText ++ size.unit.toList

/-- The number in front of the unit. -/
def amount (size : SizeText) : ℚ :=
  Nat.ofDigitChars 10 (size.whole ++ size.fraction) 0 / 10 ^ size.fraction.length

/-- The size in GiB. A size without a unit is in bytes. -/
def gib (size : SizeText) : ℚ :=
  match size.unit with
  | some c => size.amount * 2 ^ unitExponent [c]
  | none => size.amount / 2 ^ 30

theorem amount_nonneg (size : SizeText) : 0 ≤ size.amount :=
  div_nonneg (Nat.cast_nonneg _) (by positivity)

theorem digits (size : SizeText) : ∀ c ∈ size.whole ++ size.fraction, isAsciiDigit c = true := by
  intro c hc
  rcases List.mem_append.mp hc with h | h
  · exact size.whole_digits c h
  · exact size.fraction_digits c h

end SizeText

/-- The first size that the options of a disk have. -/
def HasSize (raw : Str) (size : SizeText) : Prop :=
  ∃ before after, splitAll ',' (strip raw) = before ++ (("size=" : Str) ++ size.text) :: after ∧
    ∀ part ∈ before, readSize part = none

/-! ### Runs of digits -/

theorem isDecimal_of_ascii {c : Char} (h : isAsciiDigit c = true) : isDecimal c = true := by
  rw [isDecimal, digitValue_of_ascii h, Option.isSome_some]

theorem digitsWithUnderscores_of_ascii {s : Str} (h : ∀ c ∈ s, isAsciiDigit c = true) (b : Bool)
    (hs : s ≠ [] ∨ b = true) : Value.digitsWithUnderscores b s = some s := by
  induction s generalizing b with
  | nil =>
      have hb : b = true := hs.resolve_left fun hne => hne rfl
      rw [hb]
      rfl
  | cons c s ih =>
      rw [List.forall_mem_cons] at h
      have hc : c ≠ '_' := by
        rintro rfl
        exact absurd h.1 (by decide)
      have hdigit : (digitValue c).isSome = true := isDecimal_of_ascii h.1
      rw [Value.digitsWithUnderscores, if_neg hc, if_pos hdigit, ih h.2 true (.inr rfl)]
      rfl

theorem optionalDigits_of_ascii {s : Str} (h : ∀ c ∈ s, isAsciiDigit c = true) :
    optionalDigits s = some s := by
  unfold optionalDigits
  split
  · rename_i hs
    rw [hs]
  · rename_i hs
    exact digitsWithUnderscores_of_ascii h false (.inl hs)

/-! ### The size of a clone's disk -/

namespace SizeText

variable (size : SizeText)

theorem dot_notMem_whole : '.' ∉ size.whole := fun h => absurd (size.whole_digits _ h) (by decide)

theorem unit_not_decimal {c : Char} (h : c ∈ size.unit) : isDecimal c = false ∧ c ≠ '.' := by
  have hc : ∀ d ∈ ("KMGTPkmgtp" : Str), isDecimal d = false ∧ d ≠ '.' :=
    forall_mem_of_all (by decide)
  exact hc c (size.unit_mem c h)

theorem mantissa_amountText : mantissa size.amountText = some size.amount := by
  have hsplit : splitOnce '.' size.amountText =
      (size.whole, if size.fraction = [] then none else some size.fraction) := by
    unfold amountText
    split
    · rw [List.append_nil]
      exact splitOnce_of_notMem size.dot_notMem_whole
    · exact splitOnce_append size.dot_notMem_whole size.fraction
  have hfraction : (if size.fraction = [] then none else some size.fraction).getD [] =
      size.fraction := by
    split
    · rename_i h
      exact h.symm
    · rfl
  have hne : size.whole ++ size.fraction ≠ [] := by simp [size.whole_ne_nil]
  unfold mantissa
  simp only [hsplit, hfraction, optionalDigits_of_ascii size.whole_digits,
    optionalDigits_of_ascii size.fraction_digits, Option.bind_eq_bind, Option.bind_some,
    if_neg hne, toInt_of_ascii size.digits]
  rfl

theorem readAmount_text : readAmount size.text = some (size.amountText, size.unit.toList) := by
  have hwhole : ∀ c ∈ size.whole, isDecimal c = true := fun c hc =>
    isDecimal_of_ascii (size.whole_digits c hc)
  have hunit : ∀ c ∈ size.unit.toList.head?, isDecimal c = false := by
    intro c hc
    have hmem := List.mem_of_mem_head? hc
    exact (size.unit_not_decimal (Option.mem_toList.mp hmem)).1
  unfold readAmount text amountText
  by_cases hf : size.fraction = []
  · obtain ⟨htake, hdrop⟩ := span_of_run hwhole hunit
    rw [if_pos hf, List.append_nil]
    simp only [htake, hdrop, if_neg size.whole_ne_nil]
    split
    · rename_i t ht
      have hdot : '.' ∈ size.unit := Option.mem_toList.mp (by rw [ht]; exact List.mem_cons_self)
      exact absurd rfl (size.unit_not_decimal hdot).2
    · rfl
  · have hfraction : ∀ c ∈ size.fraction, isDecimal c = true := fun c hc =>
      isDecimal_of_ascii (size.fraction_digits c hc)
    obtain ⟨htake, hdrop⟩ := span_of_run (t := '.' :: (size.fraction ++ size.unit.toList)) hwhole
      (by
        rintro c ⟨⟩
        decide)
    obtain ⟨htake', hdrop'⟩ := span_of_run hfraction hunit
    rw [if_neg hf, List.append_assoc]
    simp only [htake, hdrop, if_neg size.whole_ne_nil, List.cons_append, htake', hdrop', if_neg hf]

theorem readUnit_unit : readUnit size.unit.toList = size.unit.toList := by
  have hunit : ∀ d ∈ ("KMGTPkmgtp" : Str), isUnit d = true := forall_mem_of_all (by decide)
  cases h : size.unit with
  | none => rfl
  | some c =>
      have hc : isUnit c = true := hunit c (size.unit_mem c h)
      simp [readUnit, hc]

theorem readSize_text :
    readSize (("size=" : Str) ++ size.text) = some (size.amountText, size.unit.toList) := by
  have hname : stripName sizeName (("size=" : Str) ++ size.text) = some size.text := rfl
  simp only [readSize, hname, Option.bind_eq_bind, Option.bind_some, readAmount_text,
    readUnit_unit]
  rfl

end SizeText

theorem parse_of_hasSize {raw : Str} {size : SizeText} (h : HasSize raw size) :
    parseDiskSizeGb raw = some (roundDouble 2
      (scaleDouble (toDouble size.amount) (unitExponent size.unit.toList))) := by
  obtain ⟨before, after, hsplit, hbefore⟩ := h
  have hfind : (splitAll ',' (strip raw)).findSome? readSize =
      some (size.amountText, size.unit.toList) := by
    rw [hsplit, List.findSome?_append, List.findSome?_eq_none_iff.mpr hbefore,
      List.findSome?_cons, size.readSize_text]
    rfl
  simp only [parseDiskSizeGb, hfind, Option.bind_eq_bind, Option.bind_some,
    size.mantissa_amountText]
  rfl

/-! ### The size in bytes -/

/-- The characters of an amount. -/
def inAmount (c : Char) : Bool := isAsciiDigit c || c == '.'

/-- The words of the pattern are an amount and a unit. -/
theorem diskSize_groups {s : Str} {m : Match Char} (h : diskSize.fullmatch s = some m) :
    ∃ u v, s = u ++ v ∧ (m.group 1).getD [] = u ∧ (m.group 2).getD [] = v ∧
      (∀ c ∈ u, inAmount c = true) ∧ (v = [] ∨ ∃ c ∈ ("KMGT" : Str), v = [c]) := by
  obtain ⟨-, -, hm⟩ := fullmatch_eq_some h
  simp only [diskSize, matches_seq, matches_group, matches_plus_one, matches_opt, matches_lit,
    matches_one] at hm
  obtain ⟨u, v, h₁, h₂, rfl, hgroups, ⟨g, hamount, rfl⟩, ⟨g', hunit, rfl⟩⟩ := hm
  obtain ⟨whole, rest, g₁, g₂, rfl, rfl, ⟨-, hwhole, rfl⟩, hrest⟩ := hamount
  have hg₂ : g₂ = [] := by
    rcases hrest with ⟨dot, digits, k₁, k₂, -, rfl, ⟨-, rfl⟩, ⟨-, -, rfl⟩⟩ | ⟨-, rfl⟩ <;> rfl
  have hg' : g' = [] := by
    rcases hunit with ⟨-, rfl⟩ | ⟨-, rfl⟩ <;> rfl
  subst hg₂ hg'
  refine ⟨_, _, rfl, ?_, ?_, ?_, ?_⟩
  · rw [Match.group, hgroups]
    rfl
  · rw [Match.group, hgroups]
    rfl
  · intro c hc
    have hdigit : ∀ {t : Str}, (∀ c ∈ t, isAsciiDigit c = true) → ∀ c ∈ t, inAmount c = true := by
      intro t ht c hc
      rw [inAmount, ht c hc, Bool.true_or]
    rcases List.mem_append.mp hc with hc | hc
    · exact hdigit hwhole c hc
    · rcases hrest with ⟨dot, digits, k₁, k₂, rfl, -, ⟨rfl, -⟩, ⟨-, hdigits, -⟩⟩ | ⟨rfl, -⟩
      · rcases List.mem_append.mp hc with hc | hc
        · rw [List.mem_singleton.mp hc]
          decide
        · exact hdigit hdigits c hc
      · cases hc
  · rcases hunit with ⟨⟨c, hc, rfl⟩, -⟩ | ⟨rfl, -⟩
    · exact .inr ⟨c, List.contains_iff_mem.mp hc, rfl⟩
    · exact .inl rfl

theorem SizeText.inAmount_of_mem (size : SizeText) : ∀ c ∈ size.amountText, inAmount c = true := by
  have hdigit : ∀ {t : Str}, (∀ c ∈ t, isAsciiDigit c = true) → ∀ c ∈ t, inAmount c = true := by
    intro t ht c hc
    rw [inAmount, ht c hc, Bool.true_or]
  intro c hc
  rcases List.mem_append.mp hc with hc | hc
  · exact hdigit size.whole_digits c hc
  · split at hc
    · cases hc
    · rcases List.mem_cons.mp hc with rfl | hc
      · decide
      · exact hdigit size.fraction_digits c hc

/-- The bytes of the factors of 1024. -/
theorem SizeText.gib_mul (size : SizeText) (h : ∀ c ∈ size.unit, c ∈ ("KMGT" : Str)) :
    size.gib * 2 ^ 30 = size.amount * 1024 ^ byteExponent size.unit.toList := by
  unfold gib
  split
  · rename_i c hc
    have hexponent : ∀ d ∈ ("KMGT" : Str), unitExponent [d] + 30 = 10 * byteExponent [d] :=
      forall_mem_of_all (by decide)
    have hfactor : (2 : ℚ) ^ unitExponent [c] * 2 ^ 30 = 1024 ^ byteExponent [c] := by
      have hpow : (1024 : ℚ) = 2 ^ 10 := by norm_num
      rw [hpow, ← pow_mul, ← zpow_natCast, ← zpow_natCast, ← zpow_add₀ (by norm_num)]
      exact congrArg _ (hexponent c (h c hc))
    rw [hc, Option.toList_some, mul_assoc, hfactor]
  · rename_i hc
    rw [hc, Option.toList_none, div_mul_cancel₀ _ (by norm_num)]
    exact (mul_one _).symm

/-- What the disk operations read of a size text that they accept. -/
theorem diskSizeBytes_text {size : SizeText} {bytes : ℕ}
    (h : diskSizeBytes size.text = some bytes) :
    0 < bytes ∧ significant (size.gib * 2 ^ 30) = bytes ∧ ∀ c ∈ size.unit, c ∈ ("KMGT" : Str) := by
  cases hm : diskSize.fullmatch size.text with
  | none => simp [diskSizeBytes, hm] at h
  | some m =>
      obtain ⟨u, v, hsplit, hu, hv, hamount, hunit⟩ := diskSize_groups hm
      have hclear : ∀ c ∈ v, inAmount c = false := by
        have hall : ∀ c ∈ ("KMGT" : Str), inAmount c = false := forall_mem_of_all (by decide)
        rcases hunit with rfl | ⟨c, hc, rfl⟩
        · intro d hd
          cases hd
        · intro d hd
          rw [List.mem_singleton.mp hd]
          exact hall c hc
      have hclear' : ∀ c ∈ size.unit.toList, inAmount c = false := by
        have hall : ∀ c ∈ ("KMGTPkmgtp" : Str), inAmount c = false :=
          forall_mem_of_all (by decide)
        exact fun c hc => hall c (size.unit_mem c (Option.mem_toList.mp hc))
      obtain ⟨rfl, rfl⟩ := run_unique hamount hclear size.inAmount_of_mem hclear' hsplit.symm
      have hmem : ∀ c ∈ size.unit, c ∈ ("KMGT" : Str) := by
        intro c hc
        rcases hunit with hnil | ⟨d, hd, hd'⟩
        · rw [hc] at hnil
          cases hnil
        · rw [hc] at hd'
          cases hd'
          exact hd
      have hsize : significant (size.gib * 2 ^ 30) = ⌊significant (size.gib * 2 ^ 30)⌋ ∧
          0 < significant (size.gib * 2 ^ 30) ∧
          ⌊significant (size.gib * 2 ^ 30)⌋.toNat = bytes := by
        simp only [diskSizeBytes, hm, hu, hv, size.mantissa_amountText, Option.bind_eq_bind,
          Option.bind_some, ← size.gib_mul hmem] at h
        split at h
        · cases h
        · rename_i hpos
          rw [not_or, not_le, ne_eq, not_not] at hpos
          exact ⟨hpos.2, hpos.1, Option.some.inj h⟩
      obtain ⟨hfloor, hpos, rfl⟩ := hsize
      have hfloor' : 0 < ⌊significant (size.gib * 2 ^ 30)⌋ := by
        rw [hfloor] at hpos
        exact_mod_cast hpos
      refine ⟨by omega, ?_, hmem⟩
      have hcast := Int.toNat_of_nonneg hfloor'.le
      rw [hfloor]
      exact_mod_cast hcast.symm

/-- 28 digits are nearly the number. -/
theorem abs_significant_sub_le {q : ℚ} (hq : 0 < q) : |significant q - q| ≤ q / 10 ^ 27 := by
  have hpos : (0 : ℚ) < 10 ^ (Int.log 10 q - 27) := zpow_pos (by norm_num) _
  have hlog : (10 : ℚ) ^ Int.log 10 q ≤ q := by
    exact_mod_cast Int.zpow_log_le_self (b := 10) (by norm_num) hq
  have hpower : (10 : ℚ) ^ (Int.log 10 q - 27) ≤ q / 10 ^ 27 := by
    rw [le_div_iff₀ (by norm_num), ← zpow_natCast, ← zpow_add₀ (by norm_num), Nat.cast_ofNat,
      sub_add_cancel]
    exact hlog
  have hsub : significant q - q = (halfEven (q / 10 ^ (Int.log 10 q - 27)) -
      q / 10 ^ (Int.log 10 q - 27)) * 10 ^ (Int.log 10 q - 27) := by
    rw [sub_mul, div_mul_cancel₀ _ hpos.ne', significant]
  rw [hsub, abs_mul, abs_of_pos hpos]
  have hhalf := mul_le_mul_of_nonneg_right
    (abs_halfEven_sub_le_half (q / 10 ^ (Int.log 10 q - 27))) hpos.le
  linarith

end Gjallar.DiskResize

import Gjallar.Text

/-!
# Decimal numerals without leading zeros

`str(n)` prints a positive number as a numeral that starts with another digit than zero, and every
numeral of this form is the print of the number it denotes.
-/
namespace Gjallar.Text

/-- The number a text of ASCII digits denotes. -/
def numeralValue (s : Str) : ℕ := Nat.ofDigitChars 10 s 0

/-- The text of a positive number: ASCII digits, of which the first is not zero. -/
def IsNumeral (s : Str) : Prop :=
  ∃ c ds, s = c :: ds ∧ c ≠ '0' ∧ ∀ d ∈ c :: ds, isAsciiDigit d = true

theorem IsNumeral.digits {s : Str} (h : IsNumeral s) : ∀ d ∈ s, isAsciiDigit d = true := by
  obtain ⟨c, ds, rfl, -, hdigits⟩ := h
  exact hdigits

theorem IsNumeral.append_digit {s : Str} (h : IsNumeral s) {d : Char}
    (hd : isAsciiDigit d = true) : IsNumeral (s ++ [d]) := by
  obtain ⟨c, ds, rfl, hc, hdigits⟩ := h
  refine ⟨c, ds ++ [d], rfl, hc, ?_⟩
  intro e he
  rw [← List.cons_append, List.mem_append, List.mem_singleton] at he
  rcases he with he | rfl
  · exact hdigits e he
  · exact hd

theorem isAsciiDigit_digitChar {d : ℕ} (h : d < 10) : isAsciiDigit d.digitChar = true := by
  revert d
  decide

theorem digitChar_ne_zero {d : ℕ} (hpos : 0 < d) (h : d < 10) : d.digitChar ≠ '0' := by
  have hall : ∀ d, d < 10 → 0 < d → d.digitChar ≠ '0' := by decide
  exact hall d h hpos

theorem exists_digit_of_ascii {c : Char} (h : isAsciiDigit c = true) :
    ∃ d, d < 10 ∧ c = d.digitChar := by
  simp only [isAsciiDigit, Bool.and_eq_true, decide_eq_true_eq] at h
  have hprint : ∀ d, d < 10 → Char.ofNat (d + 48) = d.digitChar := by decide
  refine ⟨c.toNat - 48, by omega, ?_⟩
  rw [← hprint _ (by omega), Nat.sub_add_cancel h.1, Char.ofNat_toNat]

/-- A print with one more digit. -/
theorem ofNat_push {n d : ℕ} (hn : 0 < n) (hd : d < 10) :
    ofNat (10 * n + d) = ofNat n ++ [d.digitChar] := by
  rw [ofNat, ofNat, ← Nat.toDigits_append_toDigits (by decide) hn hd, Nat.toDigits_of_lt_base hd]

theorem isNumeral_ofNat {n : ℕ} (h : 0 < n) : IsNumeral (ofNat n) := by
  induction n using Nat.strong_induction_on with
  | _ n ih =>
      by_cases hlt : n < 10
      · refine ⟨n.digitChar, [], Nat.toDigits_of_lt_base hlt, digitChar_ne_zero h hlt, ?_⟩
        intro d hd
        rw [List.mem_singleton.mp hd]
        exact isAsciiDigit_digitChar hlt
      · have hsplit : n = 10 * (n / 10) + n % 10 := by omega
        rw [hsplit, ofNat_push (by omega) (by omega)]
        exact (ih (n / 10) (by omega) (by omega)).append_digit (isAsciiDigit_digitChar (by omega))

theorem numeralValue_append (s : Str) {d : ℕ} (hd : d < 10) :
    numeralValue (s ++ [d.digitChar]) = 10 * numeralValue s + d := by
  rw [numeralValue, Nat.ofDigitChars_append, Nat.ofDigitChars_cons_digitChar_of_lt_ten hd,
    Nat.ofDigitChars_nil, numeralValue]

/-- A numeral denotes a positive number, whose print it is. -/
theorem ofNat_numeralValue {s : Str} (h : IsNumeral s) :
    0 < numeralValue s ∧ ofNat (numeralValue s) = s := by
  induction s using List.reverseRecOn with
  | nil =>
      obtain ⟨c, ds, hnil, -⟩ := h
      cases hnil
  | append_singleton s c ih =>
      obtain ⟨d, hd, rfl⟩ := exists_digit_of_ascii (h.digits c (by simp))
      cases s with
      | nil =>
          obtain ⟨e, ds, hcons, he, -⟩ := h
          rw [List.nil_append, List.cons.injEq] at hcons
          have hpos : 0 < d := by
            rcases Nat.eq_zero_or_pos d with rfl | hpos
            · exact absurd hcons.1.symm he
            · exact hpos
          rw [numeralValue_append [] hd]
          exact ⟨by omega, by simpa [numeralValue, ofNat] using Nat.toDigits_of_lt_base hd⟩
      | cons b s =>
          have hfront : IsNumeral (b :: s) := by
            obtain ⟨e, ds, hcons, he, hdigits⟩ := h
            rw [List.cons_append, List.cons.injEq] at hcons
            obtain ⟨rfl, rfl⟩ := hcons
            exact ⟨b, s, rfl, he, fun d hd => hdigits d (by
              rw [← List.cons_append]
              exact List.mem_append_left _ hd)⟩
          have hfrontValue := ih hfront
          rw [numeralValue_append _ hd, ofNat_push hfrontValue.1 hd, hfrontValue.2]
          exact ⟨by omega, rfl⟩

theorem toInt_of_numeral {s : Str} (h : IsNumeral s) : toInt s = some (numeralValue s) :=
  toInt_of_ascii h.digits

theorem length_ofNat_le_iff {n k : ℕ} (hk : 0 < k) : (ofNat n).length ≤ k ↔ n < 10 ^ k :=
  Nat.length_toDigits_le_iff (by decide) hk

end Gjallar.Text

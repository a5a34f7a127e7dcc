import Gjallar.Data

/-!
# Numbers in texts

`float(s)` of a text, as the exact rational that it denotes.
-/
namespace Gjallar.FloatText

open Gjallar.Text Gjallar.Data

/-- The digits of a part of a number, possibly none. -/
def optionalDigits (s : Str) : Option Str :=
  if s = [] then some [] else Value.digitsWithUnderscores false s

/-- A number without an exponent. -/
def mantissa (s : Str) : Option ℚ := do
  let parts := splitOnce '.' s
  let whole ← optionalDigits parts.1
  let fraction ← optionalDigits (parts.2.getD [])
  if whole ++ fraction = [] then none
  else
    let n ← toInt (whole ++ fraction)
    return n / 10 ^ fraction.length

/-- A number after its sign. -/
def unsigned (s : Str) : Option ℚ := do
  let mark := s.span fun c => c != 'e' && c != 'E'
  let m ← mantissa mark.1
  match mark.2 with
  | [] => return m
  | _ :: '-' :: digits =>
      let n ← toInt (← Value.digitsWithUnderscores false digits)
      return m / 10 ^ n
  | _ :: '+' :: digits =>
      let n ← toInt (← Value.digitsWithUnderscores false digits)
      return m * 10 ^ n
  | _ :: digits =>
      let n ← toInt (← Value.digitsWithUnderscores false digits)
      return m * 10 ^ n

/-- `float(s)` for a text, exactly; infinities and NaN are no figures. -/
def parseFloat (s : Str) : Option ℚ :=
  match strip s with
  | '-' :: t => (unsigned t).map (- ·)
  | '+' :: t => unsigned t
  | t => unsigned t

end Gjallar.FloatText

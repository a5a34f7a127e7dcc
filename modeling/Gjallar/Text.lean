import Mathlib.Algebra.Group.Nat.Defs
import Mathlib.Data.List.Basic
import Mathlib.Data.List.Infix
import Mathlib.Data.List.Lattice

/-!
# Text and its standard operations

Text is a list of characters. The operations are the string methods of the standard library,
with their Unicode tables for white space and digits. Decimal numerals print and parse back.
-/
namespace Gjallar.Text

abbrev Str := List Char

instance : Coe String Str := ⟨String.toList⟩

instance : LawfulBEq Str := inferInstance

/-- The characters `str.isspace` accepts. -/
def isSpace (c : Char) : Bool :=
  let n := c.toNat
  (9 ≤ n && n ≤ 13) || (0x1c ≤ n && n ≤ 0x20) || n == 0x85 || n == 0xa0 || n == 0x1680 ||
    (0x2000 ≤ n && n ≤ 0x200a) || n == 0x2028 || n == 0x2029 || n == 0x202f || n == 0x205f ||
    n == 0x3000

def strip (s : Str) : Str := ((s.dropWhile isSpace).reverse.dropWhile isSpace).reverse

/-- Lower case. Besides the ASCII letters only `U+0130` and `U+212A` have a lower case with an
ASCII letter in it; the other characters are left, since no caller tells them apart. -/
def lowerChar (c : Char) : Str :=
  if 'A' ≤ c ∧ c ≤ 'Z' then [Char.ofNat (c.toNat + 32)]
  else if c.toNat = 0x130 then ['i', Char.ofNat 0x307]
  else if c.toNat = 0x212a then ['k']
  else [c]

def lower (s : Str) : Str := s.flatMap lowerChar

/-- Upper case of the ASCII letters. -/
def upperAscii (s : Str) : Str :=
  s.map fun c => if 'a' ≤ c ∧ c ≤ 'z' then Char.ofNat (c.toNat - 32) else c

/-- `needle in hay`. -/
def contains (hay needle : Str) : Bool := decide (needle <:+: hay)

/-- `s.split(sep, 1)` for a one-character separator. -/
def splitOnce (sep : Char) : Str → Str × Option Str
  | [] => ([], none)
  | c :: s => if c = sep then ([], some s) else
      let r := splitOnce sep s
      (c :: r.1, r.2)

/-- `s.split(sep)` for a one-character separator. -/
def splitAll (sep : Char) : Str → List Str
  | [] => [[]]
  | c :: s =>
      match splitAll sep s with
      | [] => [[c]]
      | w :: ws => if c = sep then [] :: w :: ws else (c :: w) :: ws

def join (sep : Str) : List Str → Str
  | [] => []
  | [w] => w
  | w :: v :: ws => w ++ sep ++ join sep (v :: ws)

/-- `s.strip(c)` for one character. -/
def stripChar (c : Char) (s : Str) : Str :=
  ((s.dropWhile (· = c)).reverse.dropWhile (· = c)).reverse

def removePrefix (p s : Str) : Str := if p.isPrefixOf s then s.drop p.length else s

/-- `s.replace(old, new)` for one character. -/
def replaceChar (old new : Char) (s : Str) : Str := s.map fun c => if c = old then new else c

/-- Lexicographic comparison by code point. -/
def textLe : Str → Str → Bool
  | [], _ => true
  | _ :: _, [] => false
  | c :: s, d :: t => if c = d then textLe s t else decide (c.toNat ≤ d.toNat)

/-! ### Digits -/

/-- The zero digits of the decimal systems; each is followed by its nine other digits. -/
def decimalZeros : List ℕ :=
  [0x660, 0x6f0, 0x7c0, 0x966, 0x9e6, 0xa66, 0xae6, 0xb66, 0xbe6, 0xc66, 0xce6, 0xd66, 0xde6,
    0xe50, 0xed0, 0xf20, 0x1040, 0x1090, 0x17e0, 0x1810, 0x1946, 0x19d0, 0x1a80, 0x1a90, 0x1b50,
    0x1bb0, 0x1c40, 0x1c50, 0xa620, 0xa8d0, 0xa900, 0xa9d0, 0xa9f0, 0xaa50, 0xabf0, 0xff10,
    0x104a0, 0x10d30, 0x11066, 0x110f0, 0x11136, 0x111d0, 0x112f0, 0x11450, 0x114d0, 0x11650,
    0x116c0, 0x11730, 0x118e0, 0x11950, 0x11c50, 0x11d50, 0x11da0, 0x11f50, 0x16a60, 0x16ac0,
    0x16b50, 0x1d7ce, 0x1d7d8, 0x1d7e2, 0x1d7ec, 0x1d7f6, 0x1e140, 0x1e2f0, 0x1e4f0, 0x1e950,
    0x1fbf0]

/-- Digits without a decimal value, such as superscripts: `str.isdigit` accepts them and `int`
does not. -/
def otherDigitRanges : List (ℕ × ℕ) :=
  [(0xb2, 0xb3), (0xb9, 0xb9), (0x1369, 0x1371), (0x19da, 0x19da), (0x2070, 0x2070),
    (0x2074, 0x2079), (0x2080, 0x2089), (0x2460, 0x2468), (0x2474, 0x247c), (0x2488, 0x2490),
    (0x24ea, 0x24ea), (0x24f5, 0x24fd), (0x24ff, 0x24ff), (0x2776, 0x277e), (0x2780, 0x2788),
    (0x278a, 0x2792), (0x10a40, 0x10a43), (0x10e60, 0x10e68), (0x11052, 0x1105a),
    (0x1f100, 0x1f10a)]

def isAsciiDigit (c : Char) : Bool := 48 ≤ c.toNat && c.toNat ≤ 57

/-- `[A-Za-z0-9]`. -/
def isAlnum (c : Char) : Bool :=
  ('a' ≤ c && c ≤ 'z') || ('A' ≤ c && c ≤ 'Z') || isAsciiDigit c

/-- `[A-Za-z0-9…]` with the given further characters. -/
def alnumOr (extra : Str) (c : Char) : Bool := isAlnum c || extra.contains c

def isHexDigit (c : Char) : Bool :=
  isAsciiDigit c || ('a' ≤ c && c ≤ 'f') || ('A' ≤ c && c ≤ 'F')

/-- `[a-f0-9]`. -/
def isLowerHex (c : Char) : Bool := isAsciiDigit c || ('a' ≤ c && c ≤ 'f')

/-- The value of a decimal digit. -/
def digitValue (c : Char) : Option ℕ :=
  if isAsciiDigit c then some (c.toNat - 48)
  else (decimalZeros.find? fun z => z ≤ c.toNat && c.toNat < z + 10).map (c.toNat - ·)

def isDigitChar (c : Char) : Bool :=
  (digitValue c).isSome || otherDigitRanges.any fun r => r.1 ≤ c.toNat && c.toNat ≤ r.2

/-- `s.isdigit()`. -/
def isDigit (s : Str) : Bool := !s.isEmpty && s.all isDigitChar

def pushDigit (n : Option ℕ) (c : Char) : Option ℕ :=
  n.bind fun n => (digitValue c).map (10 * n + ·)

/-- `int(s)` on a text for which `isDigit` holds; `none` is the `ValueError`. -/
def toInt (s : Str) : Option ℕ := s.foldl pushDigit (some 0)

/-- `str(n)` for a natural number. -/
def ofNat (n : ℕ) : Str := Nat.toDigits 10 n

/-- `str(n)` for an integer. -/
def ofInt : ℤ → Str
  | .ofNat n => ofNat n
  | .negSucc n => '-' :: ofNat (n + 1)

theorem isAsciiDigit_iff (c : Char) : isAsciiDigit c = true ↔ c.isDigit = true := by
  simp only [isAsciiDigit, Char.isDigit, Bool.and_eq_true, decide_eq_true_eq, ge_iff_le,
    UInt32.le_iff_toNat_le]
  rfl

theorem isAsciiDigit_of_mem_ofNat {n : ℕ} {c : Char} (h : c ∈ ofNat n) : isAsciiDigit c = true :=
  (isAsciiDigit_iff c).mpr (Nat.isDigit_of_mem_toDigits (by decide) (by decide) h)

@[simp] theorem ofNat_ne_nil (n : ℕ) : ofNat n ≠ [] := Nat.toDigits_ne_nil

theorem digitValue_of_ascii {c : Char} (h : isAsciiDigit c = true) :
    digitValue c = some (c.toNat - 48) := by simp [digitValue, h]

/-- A text of ASCII digits is read in base ten. -/
theorem foldl_pushDigit {s : Str} (h : ∀ c ∈ s, isAsciiDigit c = true) (n : ℕ) :
    s.foldl pushDigit (some n) = some (Nat.ofDigitChars 10 s n) := by
  induction s generalizing n with
  | nil => rfl
  | cons c s ih =>
      rw [List.forall_mem_cons] at h
      rw [List.foldl_cons, pushDigit, digitValue_of_ascii h.1, Option.bind_some, Option.map_some,
        ih h.2, Nat.ofDigitChars_cons]
      rfl

theorem toInt_of_ascii {s : Str} (h : ∀ c ∈ s, isAsciiDigit c = true) :
    toInt s = some (Nat.ofDigitChars 10 s 0) := foldl_pushDigit h 0

@[simp] theorem toInt_ofNat (n : ℕ) : toInt (ofNat n) = some n := by
  rw [toInt_of_ascii fun c => isAsciiDigit_of_mem_ofNat]
  exact congrArg some Nat.ofDigitChars_ten_toDigits

@[simp] theorem isDigit_ofNat (n : ℕ) : isDigit (ofNat n) = true := by
  simp only [isDigit, Bool.and_eq_true, Bool.not_eq_true', List.isEmpty_eq_false_iff, ne_eq,
    ofNat_ne_nil, not_false_eq_true, List.all_eq_true, true_and]
  intro c hc
  simp [isDigitChar, digitValue_of_ascii (isAsciiDigit_of_mem_ofNat hc)]

theorem ofNat_injective : Function.Injective ofNat := by
  intro m n h
  have := congrArg toInt h
  simpa using this

@[simp] theorem contains_iff (hay needle : Str) :
    contains hay needle = true ↔ needle <:+: hay := by simp [contains]

/-- A property of all characters of a literal text is decided one character after the other. -/
theorem forall_mem_of_all {p : Char → Prop} [DecidablePred p] {s : Str}
    (h : s.all (fun c => decide (p c)) = true) : ∀ c ∈ s, p c := by
  simpa using h

/-! ### Stripping -/

theorem dropWhile_of_prefix {p : Char → Bool} {s u : List Char} (h : u <+: s.dropWhile p) :
    u.dropWhile p = u := by
  cases u with
  | nil => rfl
  | cons c u =>
      obtain ⟨v, hv⟩ := h
      rw [List.dropWhile_cons_of_neg]
      have hd := List.head?_dropWhile_not p s
      rw [← hv] at hd
      simpa using hd

theorem strip_strip (s : Str) : strip (strip s) = strip s := by
  have hfront : strip s <+: s.dropWhile isSpace := by
    rw [strip, ← List.reverse_suffix, List.reverse_reverse]
    exact List.dropWhile_suffix isSpace
  have hback : (strip s).reverse.dropWhile isSpace = (strip s).reverse := by
    rw [strip, List.reverse_reverse]
    exact dropWhile_of_prefix List.prefix_rfl
  rw [strip, dropWhile_of_prefix hfront, hback, List.reverse_reverse]

/-! ### Splitting -/

theorem splitAll_ne_nil (sep : Char) (s : Str) : splitAll sep s ≠ [] := by
  cases s with
  | nil => simp [splitAll]
  | cons c s =>
      simp only [splitAll]
      cases splitAll sep s with
      | nil => simp
      | cons w ws => by_cases h : c = sep <;> simp [h]

/-- The pieces of a split, joined again, are the text. -/
theorem join_splitAll (sep : Char) (s : Str) : join [sep] (splitAll sep s) = s := by
  induction s with
  | nil => rfl
  | cons c s ih =>
      simp only [splitAll]
      cases hs : splitAll sep s with
      | nil => exact absurd hs (splitAll_ne_nil sep s)
      | cons w ws =>
          rw [hs] at ih
          by_cases h : c = sep
          · simp [h, join, ih]
          · cases ws with
            | nil => simp_all [join]
            | cons v vs => simp_all [join]

end Gjallar.Text

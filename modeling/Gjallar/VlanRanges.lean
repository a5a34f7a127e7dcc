import Gjallar.HostNetwork
import Gjallar.Numerals
import Gjallar.RangeLists
import Gjallar.Traversals

/-!
# VLAN lists and the sets they denote

A VLAN list that is accepted is printed as the normal list of ranges of the identifiers it
denotes. The print is accepted again and is the same for every list that denotes the same set.
-/
namespace Gjallar.HostNetwork

open Gjallar.Text Gjallar.TextLines Gjallar.Data Gjallar.Operation Gjallar.Regex
  Gjallar.Regex.Pattern Gjallar.RangeLists Gjallar.Traversals

/-! ### Parts -/

theorem notMem_of_digits {s : Str} (h : ∀ d ∈ s, isAsciiDigit d = true) : '-' ∉ s := by
  intro hmem
  have := h '-' hmem
  cases this

theorem matches_vlanId {b w a : Str} {g : Groups Char} :
    vlanId.Matches b w a g ↔ IsNumeral w ∧ w.length ≤ 4 ∧ g = [] := by
  simp only [vlanId, matches_seq, matches_one, matches_upTo_one, isNonzeroDigit, Bool.and_eq_true,
    bne_iff_ne]
  constructor
  · rintro ⟨u, v, h, k, rfl, rfl, ⟨⟨c, hc, rfl⟩, rfl⟩, hlength, hdigits, rfl⟩
    refine ⟨⟨c, v, rfl, hc.2, ?_⟩, ?_, rfl⟩
    · exact List.forall_mem_cons.mpr ⟨hc.1, hdigits⟩
    · rw [List.singleton_append, List.length_cons]
      omega
  · rintro ⟨⟨c, ds, rfl, hc, hdigits⟩, hlength, rfl⟩
    rw [List.forall_mem_cons] at hdigits
    rw [List.length_cons] at hlength
    exact ⟨[c], ds, [], [], rfl, rfl, ⟨⟨c, ⟨hdigits.1, hc⟩, rfl⟩, rfl⟩, by omega, hdigits.2, rfl⟩

theorem fullmatch_vlanPart {w : Str} : (vlanPart.fullmatch w).isSome = true ↔
    (IsNumeral w ∧ w.length ≤ 4) ∨ ∃ u v, w = u ++ '-' :: v ∧
      (IsNumeral u ∧ u.length ≤ 4) ∧ IsNumeral v ∧ v.length ≤ 4 := by
  rw [fullmatch_isSome_iff]
  simp only [vlanPart, matches_seq, matches_opt, matches_lit, matches_vlanId]
  constructor
  · rintro ⟨g, u, v, h, k, rfl, rfl, ⟨hu, hulength, rfl⟩, hv⟩
    rcases hv with ⟨dash, v', h', k', rfl, rfl, ⟨rfl, rfl⟩, hv, hvlength, rfl⟩ | ⟨rfl, rfl⟩
    · exact Or.inr ⟨u, v', rfl, ⟨hu, hulength⟩, hv, hvlength⟩
    · exact Or.inl ⟨by rwa [List.append_nil], by rwa [List.append_nil]⟩
  · rintro (⟨hw, hlength⟩ | ⟨u, v, rfl, ⟨hu, hulength⟩, hv, hvlength⟩)
    · exact ⟨[], w, [], [], [], by simp, rfl, ⟨hw, hlength, rfl⟩, Or.inr ⟨rfl, rfl⟩⟩
    · exact ⟨[], u, '-' :: v, [], [], rfl, rfl, ⟨hu, hulength, rfl⟩,
        Or.inl ⟨['-'], v, [], [], rfl, rfl, ⟨rfl, rfl⟩, hv, hvlength, rfl⟩⟩

/-- A word names the numbers of a range: their only number, or their first and last one. -/
def Names (word : Str) (r : ℕ × ℕ) : Prop :=
  (word = ofNat r.1 ∧ r.1 = r.2) ∨ word = ofNat r.1 ++ '-' :: ofNat r.2

/-- The numbers between the dashes of a part. -/
def partNumbers (part : Str) : List ℕ :=
  (splitAll '-' part).map fun number => (toInt number).getD 0

theorem partNumbers_numeral {u : Str} (hu : IsNumeral u) : partNumbers u = [numeralValue u] := by
  rw [partNumbers, splitAll_of_notMem (notMem_of_digits hu.digits), List.map_singleton,
    toInt_of_numeral hu]
  rfl

theorem partNumbers_pair {u v : Str} (hu : IsNumeral u) (hv : IsNumeral v) :
    partNumbers (u ++ '-' :: v) = [numeralValue u, numeralValue v] := by
  have hlast := partNumbers_numeral hv
  rw [partNumbers] at hlast
  rw [partNumbers, splitAll_append_cons (notMem_of_digits hu.digits), List.map_cons, hlast,
    toInt_of_numeral hu]
  rfl

theorem vlanBounds_iff {part : Str} {r : ℕ × ℕ} : vlanBounds part = .ok r ↔
    (vlanPart.fullmatch part).isSome = true ∧
      r = ((partNumbers part).headD 0, (partNumbers part).getLastD 0) ∧
      1 ≤ r.1 ∧ r.1 ≤ r.2 ∧ r.2 ≤ 4094 := by
  simp only [vlanBounds, bind_eq_ok, raiseIf_eq_ok, pure_eq_ok, not_not, Option.isNone_iff_eq_none,
    ← Option.isSome_iff_ne_none]
  constructor
  · rintro ⟨-, hpart, -, hbounds, rfl⟩
    exact ⟨hpart, rfl, hbounds⟩
  · rintro ⟨hpart, rfl, hbounds⟩
    exact ⟨(), hpart, (), hbounds, rfl⟩

theorem isNumeral_bound {n : ℕ} (hlow : 1 ≤ n) (hhigh : n ≤ 4094) :
    IsNumeral (ofNat n) ∧ (ofNat n).length ≤ 4 :=
  ⟨isNumeral_ofNat hlow, (length_ofNat_le_iff (by decide)).mpr (by omega)⟩

theorem numeralValue_ofNat (n : ℕ) : numeralValue (ofNat n) = n := Nat.ofDigitChars_ten_toDigits

/-- A part is accepted as the range it names. -/
theorem vlanBounds_eq_ok {part : Str} {r : ℕ × ℕ} :
    vlanBounds part = .ok r ↔ Names part r ∧ 1 ≤ r.1 ∧ r.1 ≤ r.2 ∧ r.2 ≤ 4094 := by
  rw [vlanBounds_iff, fullmatch_vlanPart]
  constructor
  · rintro ⟨⟨hu, -⟩ | ⟨u, v, rfl, ⟨hu, -⟩, hv, -⟩, hr, hbounds⟩
    · rw [partNumbers_numeral hu] at hr
      subst hr
      exact ⟨Or.inl ⟨(ofNat_numeralValue hu).2.symm, rfl⟩, hbounds⟩
    · rw [partNumbers_pair hu hv] at hr
      subst hr
      refine ⟨Or.inr ?_, hbounds⟩
      change _ = ofNat (numeralValue u) ++ '-' :: ofNat (numeralValue v)
      rw [(ofNat_numeralValue hu).2, (ofNat_numeralValue hv).2]
  · obtain ⟨first, last⟩ := r
    rintro ⟨hname, hlow, horder, hhigh⟩
    have hfirst := isNumeral_bound hlow (horder.trans hhigh)
    have hlast := isNumeral_bound (hlow.trans horder) hhigh
    rcases hname with ⟨rfl, heq⟩ | rfl
    · refine ⟨Or.inl hfirst, ?_, hlow, horder, hhigh⟩
      rw [partNumbers_numeral hfirst.1, numeralValue_ofNat]
      exact Prod.ext rfl heq.symm
    · refine ⟨Or.inr ⟨_, _, rfl, hfirst, hlast⟩, ?_, hlow, horder, hhigh⟩
      rw [partNumbers_pair hfirst.1 hlast.1, numeralValue_ofNat, numeralValue_ofNat]
      rfl

theorem names_printRange (r : ℕ × ℕ) : Names (printRange r) r := by
  unfold printRange
  split
  · rename_i h
    exact Or.inl ⟨rfl, h⟩
  · exact Or.inr rfl

theorem notMem_ofNat (n : ℕ) : '-' ∉ ofNat n :=
  notMem_of_digits fun _ => isAsciiDigit_of_mem_ofNat

theorem splitAll_pair (m n : ℕ) :
    splitAll '-' (ofNat m ++ '-' :: ofNat n) = [ofNat m, ofNat n] := by
  rw [splitAll_append_cons (notMem_ofNat m), splitAll_of_notMem (notMem_ofNat n)]

/-- A word names at most one range. -/
theorem Names.unique {word : Str} {r s : ℕ × ℕ} (hr : Names word r) (hs : Names word s) :
    r = s := by
  have hpieces : ∀ {t : ℕ × ℕ}, Names word t →
      (splitAll '-' word).head? = some (ofNat t.1) ∧
        (splitAll '-' word).getLast? = some (ofNat t.2) := by
    rintro t (⟨rfl, heq⟩ | rfl)
    · rw [splitAll_of_notMem (notMem_ofNat t.1), ← heq]
      exact ⟨rfl, rfl⟩
    · rw [splitAll_pair]
      exact ⟨rfl, rfl⟩
  obtain ⟨hrfirst, hrlast⟩ := hpieces hr
  obtain ⟨hsfirst, hslast⟩ := hpieces hs
  rw [hrfirst, Option.some.injEq] at hsfirst
  rw [hrlast, Option.some.injEq] at hslast
  exact Prod.ext (ofNat_injective hsfirst) (ofNat_injective hslast)

/-! ### The ranges of consecutive numbers -/

theorem first_le_of_mem_vlanRuns {first last : ℕ} {values : List ℕ}
    (h : (last :: values).Pairwise (· < ·)) (hle : first ≤ last) :
    ∀ r ∈ vlanRuns first last values, first ≤ r.1 := by
  induction values generalizing first last with
  | nil =>
      intro r hr
      rw [List.mem_singleton.mp hr]
  | cons value values ih =>
      have hlt : last < value := (List.pairwise_cons.mp h).1 value List.mem_cons_self
      have hrest := (List.pairwise_cons.mp h).2
      intro r hr
      rw [vlanRuns] at hr
      split at hr
      · exact ih hrest (by omega) r hr
      · rcases List.mem_cons.mp hr with rfl | hr
        · exact le_rfl
        · have := ih hrest le_rfl r hr
          omega

/-- The ranges of an increasing list of numbers are normal and cover exactly these numbers, here
with the range read so far in front. -/
theorem vlanRuns_spec {first last : ℕ} {values : List ℕ}
    (h : (last :: values).Pairwise (· < ·)) (hle : first ≤ last) :
    Normal (vlanRuns first last values) ∧
      ∀ n, Covers (vlanRuns first last values) n ↔ (first ≤ n ∧ n ≤ last) ∨ n ∈ values := by
  induction values generalizing first last with
  | nil => exact ⟨normal_cons.mpr ⟨hle, by simp, normal_nil⟩, by simp [vlanRuns]⟩
  | cons value values ih =>
      have hlt : last < value := (List.pairwise_cons.mp h).1 value List.mem_cons_self
      have hrest := (List.pairwise_cons.mp h).2
      rw [vlanRuns]
      split
      · rename_i hnext
        obtain ⟨hnormal, hcovers⟩ := @ih first value hrest (by omega)
        refine ⟨hnormal, fun n => ?_⟩
        rw [hcovers n, List.mem_cons, ← or_assoc]
        exact or_congr_left (by omega)
      · rename_i hgap
        obtain ⟨hnormal, hcovers⟩ := @ih value value hrest le_rfl
        refine ⟨normal_cons.mpr ⟨hle, fun r hr => ?_, hnormal⟩, fun n => ?_⟩
        · have := first_le_of_mem_vlanRuns hrest le_rfl r hr
          change last + 1 < r.1
          omega
        · rw [covers_cons, hcovers n, List.mem_cons]
          exact or_congr_right (or_congr_left (by omega))

/-- The ranges of a list of numbers. -/
def numberRanges : List ℕ → List (ℕ × ℕ)
  | [] => []
  | first :: values => vlanRuns first first values

theorem numberRanges_spec {values : List ℕ} (h : values.Pairwise (· < ·)) :
    Normal (numberRanges values) ∧ ∀ n, Covers (numberRanges values) n ↔ n ∈ values := by
  cases values with
  | nil => exact ⟨normal_nil, by simp [numberRanges]⟩
  | cons first values =>
      obtain ⟨hnormal, hcovers⟩ := vlanRuns_spec h le_rfl
      refine ⟨hnormal, fun n => ?_⟩
      rw [numberRanges, hcovers n, List.mem_cons]
      exact or_congr_left (by omega)

/-! ### Accepted lists -/

/-- The identifiers that lie in one of the ranges, in order. -/
def orderedIds (bounds : List (ℕ × ℕ)) : List ℕ :=
  (List.range' 1 4094).filter fun n => bounds.any fun range => range.1 ≤ n && n ≤ range.2

/-- The ranges of the identifiers that lie in one of the given ranges. -/
def normalRanges (bounds : List (ℕ × ℕ)) : List (ℕ × ℕ) := numberRanges (orderedIds bounds)

def Bounded (bounds : List (ℕ × ℕ)) : Prop := ∀ r ∈ bounds, 1 ≤ r.1 ∧ r.1 ≤ r.2 ∧ r.2 ≤ 4094

theorem mem_orderedIds {bounds : List (ℕ × ℕ)} (h : Bounded bounds) {n : ℕ} :
    n ∈ orderedIds bounds ↔ Covers bounds n := by
  simp only [orderedIds, List.mem_filter, List.mem_range'_1, List.any_eq_true, Bool.and_eq_true,
    decide_eq_true_eq]
  constructor
  · rintro ⟨-, r, hr, hn⟩
    exact ⟨r, hr, hn⟩
  · rintro ⟨r, hr, hn⟩
    have := h r hr
    exact ⟨by omega, r, hr, hn⟩

theorem normalRanges_spec {bounds : List (ℕ × ℕ)} (h : Bounded bounds) :
    Normal (normalRanges bounds) ∧ ∀ n, Covers (normalRanges bounds) n ↔ Covers bounds n := by
  have hsorted : (orderedIds bounds).Pairwise (· < ·) :=
    (List.pairwise_lt_range' (s := 1) (n := 4094)).filter _
  obtain ⟨hnormal, hcovers⟩ := numberRanges_spec hsorted
  exact ⟨hnormal, fun n => (hcovers n).trans (mem_orderedIds h)⟩

theorem normalRanges_bounded {bounds : List (ℕ × ℕ)} (h : Bounded bounds) :
    Bounded (normalRanges bounds) := by
  obtain ⟨hnormal, hcovers⟩ := normalRanges_spec h
  intro r hr
  have horder := hnormal.nonempty r hr
  obtain ⟨s, hs, hslow, -⟩ := (hcovers r.1).mp ⟨r, hr, le_rfl, horder⟩
  obtain ⟨t, ht, -, hthigh⟩ := (hcovers r.2).mp ⟨r, hr, horder, le_rfl⟩
  have hsbounds := h s hs
  have htbounds := h t ht
  omega

theorem normalRanges_of_normal {bounds : List (ℕ × ℕ)} (h : Bounded bounds)
    (hnormal : Normal bounds) : normalRanges bounds = bounds :=
  (normalRanges_spec h).1.ext hnormal (normalRanges_spec h).2

def printRanges (rs : List (ℕ × ℕ)) : Str := join " " (rs.map printRange)

/-- A list is accepted if it is short, not blank, and each of its words names a range; it is
printed as the normal ranges. -/
theorem vlanRanges_eq_ok {value : Value} {out : Str} : vlanRanges value = .ok out ↔
    ∃ s bounds, value = .str s ∧ s.length ≤ 1024 ∧ strip s ≠ [] ∧
      (splitWords s).Forall₂ (fun word r => vlanBounds word = .ok r) bounds ∧
      out = printRanges (normalRanges bounds) := by
  have hprint : ∀ bounds : List (ℕ × ℕ), join " " ((match orderedIds bounds with
      | [] => []
      | first :: values => vlanRuns first first values).map printRange) =
        printRanges (normalRanges bounds) := by
    intro bounds
    rw [printRanges, normalRanges]
    cases orderedIds bounds <;> rfl
  cases value with
  | str s =>
      rw [vlanRanges]
      by_cases hbad : 1024 < s.length ∨ strip s = []
      · rw [if_pos hbad]
        refine iff_of_false (fun h => by cases h) ?_
        rintro ⟨s', bounds, heq, hlength, hblank, -⟩
        cases heq
        exact hbad.elim (fun hlong => absurd hlength (not_le.mpr hlong)) hblank
      · rw [if_neg hbad]
        rw [not_or, not_lt] at hbad
        simp only [bind_eq_ok, mapM_eq_ok, pure_eq_ok]
        constructor
        · rintro ⟨text, htext, bounds, hbounds, rfl⟩
          cases htext
          exact ⟨s, bounds, rfl, hbad.1, hbad.2, hbounds, hprint bounds⟩
        · rintro ⟨s', bounds, heq, -, -, hbounds, rfl⟩
          cases heq
          exact ⟨s, rfl, bounds, hbounds, hprint bounds⟩
  | _ => exact iff_of_false (fun h => by cases h) fun ⟨_, _, h, _⟩ => by cases h

/-! ### The set a list denotes -/

/-- A list denotes the numbers of the ranges its words name. -/
def Denotes (list : Str) (n : ℕ) : Prop :=
  ∃ word ∈ splitWords list, ∃ r, Names word r ∧ r.1 ≤ n ∧ n ≤ r.2

section Accepted

variable {s : Str} {bounds : List (ℕ × ℕ)}
  (h : (splitWords s).Forall₂ (fun word r => vlanBounds word = .ok r) bounds)

include h

theorem bounded_of_accepted : Bounded bounds := by
  intro r hr
  obtain ⟨word, -, hword⟩ := exists_left_of_mem h hr
  exact (vlanBounds_eq_ok.mp hword).2

theorem denotes_iff_covers (n : ℕ) : Denotes s n ↔ Covers bounds n := by
  constructor
  · rintro ⟨word, hword, r, hname, hn⟩
    obtain ⟨r', hr', hbounds⟩ := exists_right_of_mem h hword
    have heq : r = r' := hname.unique (vlanBounds_eq_ok.mp hbounds).1
    exact ⟨r', hr', heq ▸ hn⟩
  · rintro ⟨r, hr, hn⟩
    obtain ⟨word, hword, hbounds⟩ := exists_left_of_mem h hr
    exact ⟨word, hword, r, (vlanBounds_eq_ok.mp hbounds).1, hn⟩

end Accepted

/-! ### The print of normal ranges -/

theorem printRange_ne_nil (r : ℕ × ℕ) : printRange r ≠ [] := by
  unfold printRange
  split <;> simp

theorem isSpace_of_digit {c : Char} (h : isAsciiDigit c = true) : isSpace c = false := by
  simp only [isAsciiDigit, Bool.and_eq_true, decide_eq_true_eq] at h
  simp only [isSpace, Bool.or_eq_false_iff, Bool.and_eq_false_iff, decide_eq_false_iff_not,
    beq_eq_false_iff_ne]
  omega

theorem isSpace_of_mem_printRange {r : ℕ × ℕ} {c : Char} (h : c ∈ printRange r) :
    isSpace c = false := by
  unfold printRange at h
  split at h
  · exact isSpace_of_digit (isAsciiDigit_of_mem_ofNat h)
  · rw [List.mem_append, List.mem_cons] at h
    rcases h with h | rfl | h
    · exact isSpace_of_digit (isAsciiDigit_of_mem_ofNat h)
    · decide
    · exact isSpace_of_digit (isAsciiDigit_of_mem_ofNat h)

theorem splitWords_printRanges (rs : List (ℕ × ℕ)) :
    splitWords (printRanges rs) = rs.map printRange := by
  apply splitWords_join
  · exact List.forall_mem_map.mpr fun r _ => printRange_ne_nil r
  · exact List.forall_mem_map.mpr fun r _ c => isSpace_of_mem_printRange

theorem accepted_printRanges {rs : List (ℕ × ℕ)} (h : Bounded rs) :
    (splitWords (printRanges rs)).Forall₂ (fun word r => vlanBounds word = .ok r) rs := by
  rw [splitWords_printRanges, List.forall₂_map_left_iff, List.forall₂_same]
  exact fun r hr => vlanBounds_eq_ok.mpr ⟨names_printRange r, h r hr⟩

/-- The characters of a number, with one separator. -/
def numberWeight (n : ℕ) : ℕ := (ofNat n).length + 1

theorem Names.weight_le {word : Str} {r : ℕ × ℕ} (h : Names word r) :
    weight numberWeight r ≤ word.length + 1 := by
  rcases h with ⟨rfl, heq⟩ | rfl
  · rw [weight, if_pos heq]
    exact le_rfl
  · rw [weight]
    split <;> simp only [numberWeight, List.length_append, List.length_cons] <;> omega

theorem weight_printRange (r : ℕ × ℕ) :
    (printRange r).length + 1 = weight numberWeight r := by
  unfold printRange weight numberWeight
  split
  · rfl
  · simp only [List.length_append, List.length_cons]
    omega

theorem totalWeight_le_of_accepted {words : List Str} {bounds : List (ℕ × ℕ)}
    (h : words.Forall₂ (fun word r => vlanBounds word = .ok r) bounds) :
    totalWeight numberWeight bounds ≤ totalLength words := by
  induction h with
  | nil => exact le_rfl
  | cons hword _ ih =>
      rw [totalWeight_cons, totalLength_cons]
      exact add_le_add (vlanBounds_eq_ok.mp hword).1.weight_le ih

theorem totalLength_printRange (rs : List (ℕ × ℕ)) :
    totalLength (rs.map printRange) = totalWeight numberWeight rs := by
  induction rs with
  | nil => rfl
  | cons r rs ih => rw [List.map_cons, totalLength_cons, totalWeight_cons, weight_printRange, ih]

/-- The print of the normal ranges is not longer than the list. -/
theorem length_printRanges_le {s : Str} {bounds : List (ℕ × ℕ)}
    (h : (splitWords s).Forall₂ (fun word r => vlanBounds word = .ok r) bounds)
    (hne : normalRanges bounds ≠ []) : (printRanges (normalRanges bounds)).length ≤ s.length := by
  have hbounded := bounded_of_accepted h
  obtain ⟨hnormal, hcovers⟩ := normalRanges_spec hbounded
  have hprint : (printRanges (normalRanges bounds)).length + 1 =
      totalWeight numberWeight (normalRanges bounds) := by
    rw [← totalLength_printRange]
    exact length_join_add_one ' ' (by simpa using hne)
  have hleast : totalWeight numberWeight (normalRanges bounds) ≤
      totalWeight numberWeight bounds :=
    hnormal.totalWeight_le numberWeight (fun r hr => (hbounded r hr).2.1) hcovers
  have hwords := totalWeight_le_of_accepted h
  have hlength := totalLength_splitWords_le s
  omega

theorem normalRanges_ne_nil {s : Str} {bounds : List (ℕ × ℕ)}
    (h : (splitWords s).Forall₂ (fun word r => vlanBounds word = .ok r) bounds)
    (hblank : strip s ≠ []) : normalRanges bounds ≠ [] := by
  have hwords : splitWords s ≠ [] := by
    rwa [Ne, splitWords_eq_nil_iff, ← strip_eq_nil_iff]
  obtain ⟨word, hword⟩ := List.exists_mem_of_ne_nil _ hwords
  obtain ⟨r, hr, hbounds⟩ := exists_right_of_mem h hword
  have hcovered : Covers bounds r.1 := ⟨r, hr, le_rfl, (vlanBounds_eq_ok.mp hbounds).2.2.1⟩
  intro hnil
  have := ((normalRanges_spec (bounded_of_accepted h)).2 r.1).mpr hcovered
  rw [hnil] at this
  exact not_covers_nil r.1 this

/-- The print of an accepted list is accepted again and left as it is. -/
theorem vlanRanges_print {s : Str} {bounds : List (ℕ × ℕ)} (hlength : s.length ≤ 1024)
    (hblank : strip s ≠ [])
    (h : (splitWords s).Forall₂ (fun word r => vlanBounds word = .ok r) bounds) :
    vlanRanges (.str (printRanges (normalRanges bounds))) =
      .ok (printRanges (normalRanges bounds)) := by
  have hbounded := normalRanges_bounded (bounded_of_accepted h)
  have hne := normalRanges_ne_nil h hblank
  refine vlanRanges_eq_ok.mpr ⟨_, normalRanges bounds, rfl, ?_, ?_, accepted_printRanges hbounded,
    ?_⟩
  · exact (length_printRanges_le h hne).trans hlength
  · rw [Ne, strip_eq_nil_iff, ← splitWords_eq_nil_iff, splitWords_printRanges]
    simpa using hne
  · rw [normalRanges_of_normal hbounded (normalRanges_spec (bounded_of_accepted h)).1]

theorem vlanRanges_idempotent {value : Value} {out : Str} (h : vlanRanges value = .ok out) :
    vlanRanges (.str out) = .ok out := by
  obtain ⟨s, bounds, rfl, hlength, hblank, hwords, rfl⟩ := vlanRanges_eq_ok.mp h
  exact vlanRanges_print hlength hblank hwords

/-- The print of an accepted VLAN list denotes the same set by sorted, disjoint and non-adjacent
ranges, is accepted again and left as it is, and is the print of every accepted list that denotes
the set. -/
theorem vlan_range_normal_form {value : Value} {out : Str} (h : vlanRanges value = .ok out) :
    ∃ s, value = .str s ∧ (∀ n, Denotes out n ↔ Denotes s n) ∧
      (∃ rs, (splitWords out).Forall₂ Names rs ∧ Normal rs) ∧
      vlanRanges (.str out) = .ok out ∧
      ∀ s' out', vlanRanges (.str s') = .ok out' → (∀ n, Denotes s' n ↔ Denotes s n) →
        out' = out := by
  have hagain := vlanRanges_idempotent h
  obtain ⟨s, bounds, rfl, -, -, hwords, rfl⟩ := vlanRanges_eq_ok.mp h
  obtain ⟨hnormal, hcovers⟩ := normalRanges_spec (bounded_of_accepted hwords)
  have hprinted := accepted_printRanges (normalRanges_bounded (bounded_of_accepted hwords))
  refine ⟨s, rfl, fun n => ?_, ⟨_, hprinted.imp fun _ _ hword => (vlanBounds_eq_ok.mp hword).1,
    hnormal⟩, hagain, ?_⟩
  · rw [denotes_iff_covers hprinted, hcovers, denotes_iff_covers hwords]
  · intro s' out' h' hsame
    obtain ⟨t, bounds', heq, -, -, hwords', rfl⟩ := vlanRanges_eq_ok.mp h'
    cases heq
    obtain ⟨hnormal', hcovers'⟩ := normalRanges_spec (bounded_of_accepted hwords')
    have hranges : normalRanges bounds' = normalRanges bounds := by
      apply hnormal'.ext hnormal
      intro n
      rw [hcovers', hcovers, ← denotes_iff_covers hwords', ← denotes_iff_covers hwords, hsame]
    rw [hranges]

theorem vlan_range_normal_form_overlap : ∃ s, Value.str ("7 3-5 4-6 9" : Str) = .str s ∧
    (∀ n, Denotes "3-7 9" n ↔ Denotes s n) ∧
      (∃ rs, (splitWords "3-7 9").Forall₂ Names rs ∧ Normal rs) ∧
      vlanRanges (.str "3-7 9") = .ok ("3-7 9" : Str) ∧
      ∀ s' out', vlanRanges (.str s') = .ok out' → (∀ n, Denotes s' n ↔ Denotes s n) →
        out' = "3-7 9" :=
  vlan_range_normal_form (by decide +kernel)

end Gjallar.HostNetwork

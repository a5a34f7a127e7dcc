import Gjallar.DictEquality
import Gjallar.Operation
import Gjallar.TextLines
import Mathlib.Logic.Encodable.Basic
import Mathlib.Data.Rat.Encodable

/-!
# Canonical JSON

`json.dumps` with sorted keys prints a tuple as a list and a dictionary in the order of its keys.
`canonical` brings a value into that form; two values with one canonical form are the same JSON
value. A digest without collisions separates all others.
-/
namespace Gjallar.CanonicalJson

open Gjallar.Text Gjallar.TextLines Gjallar.Data Gjallar.Operation

/-! ### The canonical form -/

/-- Put an entry at its place among sorted entries, in place of one with the same key. -/
def insertEntry (key : Str) (value : Value) : Dict → Dict
  | [] => [(key, value)]
  | (k, v) :: d =>
      if key = k then (key, value) :: d
      else if textLe key k then (key, value) :: (k, v) :: d
      else (k, v) :: insertEntry key value d

mutual

def canonical : Value → Value
  | .list xs => .list (canonicalList xs)
  | .tuple xs => .list (canonicalList xs)
  | .dict kvs => .dict (canonicalDict kvs)
  | v => v

def canonicalList : List Value → List Value
  | [] => []
  | v :: vs => canonical v :: canonicalList vs

def canonicalDict : List (Str × Value) → List (Str × Value)
  | [] => []
  | (k, v) :: kvs => insertEntry k (canonical v) (canonicalDict kvs)

end

/-- The two values are printed as the same text. -/
def SameJson (v w : Value) : Prop := canonical v = canonical w

instance (v w : Value) : Decidable (SameJson v w) := inferInstanceAs (Decidable (_ = _))

@[simp] theorem canonical_null : canonical .null = .null := rfl
@[simp] theorem canonical_bool (b : Bool) : canonical (.bool b) = .bool b := rfl
@[simp] theorem canonical_int (n : ℤ) : canonical (.int n) = .int n := rfl
@[simp] theorem canonical_str (s : Str) : canonical (.str s) = .str s := rfl
@[simp] theorem canonical_dict (d : Dict) : canonical (.dict d) = .dict (canonicalDict d) :=
  rfl

theorem get_insertEntry (key : Str) (value : Value) (d : Dict) (l : Str) :
    Dict.get (insertEntry key value d) l = if l = key then some value else Dict.get d l := by
  induction d with
  | nil => simp [insertEntry]
  | cons kv d ih =>
      obtain ⟨k, v⟩ := kv
      unfold insertEntry
      by_cases hk : key = k
      · subst hk
        by_cases hl : l = key <;> simp [hl]
      · rw [if_neg hk]
        split
        · simp only [Dict.get_cons]
        · rw [Dict.get_cons, ih, Dict.get_cons]
          by_cases hl : l = key
          · rw [if_neg (by rw [hl]; exact hk), if_pos hl, if_pos hl]
          · rw [if_neg hl, if_neg hl]

/-- The entries of the canonical form are the canonical forms of the entries. -/
theorem get_canonicalDict (d : Dict) (key : Str) :
    Dict.get (canonicalDict d) key = (Dict.get d key).map canonical := by
  induction d with
  | nil => simp [canonicalDict]
  | cons kv d ih =>
      obtain ⟨k, v⟩ := kv
      rw [canonicalDict, get_insertEntry, Dict.get_cons, ih]
      by_cases h : key = k <;> simp [h]

/-! ### The order of the keys -/

/-- The keys ascend. -/
def Ascending (d : Dict) : Prop :=
  d.Pairwise fun x y => textLe x.1 y.1 = true ∧ x.1 ≠ y.1

theorem mem_insertEntry {key : Str} {value : Value} {d : Dict} {x : Str × Value}
    (h : x ∈ insertEntry key value d) : x = (key, value) ∨ x ∈ d := by
  induction d with
  | nil => exact .inl (List.mem_singleton.mp h)
  | cons kv d ih =>
      obtain ⟨k, v⟩ := kv
      unfold insertEntry at h
      split_ifs at h
      · exact (List.mem_cons.mp h).imp_right (List.mem_cons_of_mem _)
      · exact List.mem_cons.mp h
      · rcases List.mem_cons.mp h with rfl | h
        · exact .inr List.mem_cons_self
        · exact (ih h).imp_right (List.mem_cons_of_mem _)

theorem ascending_insertEntry {d : Dict} (key : Str) (value : Value) (h : Ascending d) :
    Ascending (insertEntry key value d) := by
  induction d with
  | nil => exact List.pairwise_singleton _ _
  | cons kv d ih =>
      obtain ⟨k, v⟩ := kv
      obtain ⟨hhead, htail⟩ := List.pairwise_cons.mp h
      unfold insertEntry
      split_ifs with heq hle
      · subst heq
        exact List.pairwise_cons.mpr ⟨hhead, htail⟩
      · refine List.pairwise_cons.mpr ⟨fun x hx => ?_, h⟩
        rcases List.mem_cons.mp hx with rfl | hx
        · exact ⟨hle, heq⟩
        · obtain ⟨hx₁, hx₂⟩ := hhead x hx
          refine ⟨textLe_trans hle hx₁, fun hkey => heq (textLe_antisymm hle ?_)⟩
          rw [show key = x.1 from hkey]
          exact hx₁
      · refine List.pairwise_cons.mpr ⟨fun x hx => ?_, ih htail⟩
        rcases mem_insertEntry hx with rfl | hx
        · exact ⟨(textLe_total key k).resolve_left hle, Ne.symm heq⟩
        · exact hhead x hx

theorem ascending_canonicalDict (d : Dict) : Ascending (canonicalDict d) := by
  induction d with
  | nil =>
      rw [canonicalDict]
      exact List.Pairwise.nil
  | cons kv d ih =>
      rw [canonicalDict]
      exact ascending_insertEntry _ _ ih

/-- A dictionary with ascending keys is known from its entries. -/
theorem Ascending.eq_of_get {d e : Dict} (hd : Ascending d) (he : Ascending e)
    (h : ∀ key, Dict.get d key = Dict.get e key) : d = e := by
  induction d generalizing e with
  | nil =>
      cases e with
      | nil => rfl
      | cons lw e =>
          obtain ⟨l, w⟩ := lw
          have hget := h l
          simp at hget
  | cons kv d ih =>
      obtain ⟨k, v⟩ := kv
      obtain ⟨hfirst, hrest⟩ := List.pairwise_cons.mp hd
      cases e with
      | nil =>
          have hget := h k
          simp at hget
      | cons lw e =>
          obtain ⟨l, w⟩ := lw
          obtain ⟨hfirst', hrest'⟩ := List.pairwise_cons.mp he
          have hkey : k = l := by
            by_contra hne
            have hk := h k
            have hl := h l
            rw [Dict.get_cons, Dict.get_cons, if_pos rfl, if_neg hne] at hk
            rw [Dict.get_cons, Dict.get_cons, if_pos rfl, if_neg (Ne.symm hne)] at hl
            exact hne (textLe_antisymm (hfirst _ (Dict.mem_of_get hl)).1
              (hfirst' _ (Dict.mem_of_get hk.symm)).1)
          subst hkey
          have hvalue := h k
          rw [Dict.get_cons, Dict.get_cons, if_pos rfl, if_pos rfl, Option.some.injEq] at hvalue
          subst hvalue
          have htail : ∀ key, Dict.get d key = Dict.get e key := by
            intro key
            by_cases hne : key = k
            · subst hne
              have hd' : Dict.get d key = none := by
                by_contra hsome
                obtain ⟨x, hx⟩ := Option.ne_none_iff_exists'.mp hsome
                exact (hfirst _ (Dict.mem_of_get hx)).2 rfl
              have he' : Dict.get e key = none := by
                by_contra hsome
                obtain ⟨x, hx⟩ := Option.ne_none_iff_exists'.mp hsome
                exact (hfirst' _ (Dict.mem_of_get hx)).2 rfl
              rw [hd', he']
            · have hget := h key
              rwa [Dict.get_cons, Dict.get_cons, if_neg hne, if_neg hne] at hget
          rw [ih hrest hrest' htail]

/-- Dictionaries are the same when, and only when, their entries are. -/
theorem sameJson_dict_iff {d e : Dict} : SameJson (.dict d) (.dict e) ↔
    ∀ key, (Dict.get d key).map canonical = (Dict.get e key).map canonical := by
  simp only [SameJson, canonical_dict, Value.dict.injEq, ← get_canonicalDict]
  exact ⟨fun h key => by rw [h],
    (ascending_canonicalDict d).eq_of_get (ascending_canonicalDict e)⟩

/-- Entries that are present in both are the same. -/
theorem SameJson.entry {d e : Dict} (h : SameJson (.dict d) (.dict e)) {key : Str} {v w : Value}
    (hv : Dict.get d key = some v) (hw : Dict.get e key = some w) : SameJson v w := by
  have hget := sameJson_dict_iff.mp h key
  rw [hv, hw, Option.map_some, Option.map_some, Option.some.injEq] at hget
  exact hget

/-! ### Digests without collisions -/

/-- Only the same JSON values have the same digest. -/
def CollisionFree (rt : Runtime) : Prop := ∀ v w, rt.digest v = rt.digest w → SameJson v w

theorem sameJson_of_operationDigest {rt : Runtime} (hfree : CollisionFree rt) {v w : Value}
    (h : rt.operationDigest v = rt.operationDigest w) : SameJson v w := by
  refine hfree v w ?_
  have hdigits := List.append_cancel_left h
  cases hv : rt.digest v
  cases hw : rt.digest w
  rw [hv, hw] at hdigits
  congr

/-! ### A digest without collisions exists

Values are written as texts of hexadecimal digits, none of which begins another one. -/

/-- A number and the end of its digits. -/
def printNat (n : ℕ) : Str := ofNat n ++ ['a']

def printText : Str → Str
  | [] => ['c']
  | c :: s => 'b' :: printNat c.toNat ++ printText s

mutual

def print : Value → Str
  | .null => ['0']
  | .bool b => ['1', if b then '1' else '0']
  | .int n => '2' :: printNat (Encodable.encode n)
  | .float q => '3' :: printNat (Encodable.encode q)
  | .str s => '4' :: printText s
  | .list xs => '5' :: printList xs
  | .tuple xs => '6' :: printList xs
  | .dict kvs => '7' :: printDict kvs

def printList : List Value → Str
  | [] => ['c']
  | v :: vs => 'b' :: print v ++ printList vs

def printDict : List (Str × Value) → Str
  | [] => ['c']
  | (k, v) :: kvs => 'b' :: printText k ++ print v ++ printDict kvs

end

theorem printNat_append_inj {m n : ℕ} {s t : Str} (h : printNat m ++ s = printNat n ++ t) :
    m = n ∧ s = t := by
  have htake : ∀ k u, (printNat k ++ u).takeWhile isAsciiDigit = ofNat k := by
    intro k u
    rw [printNat, List.append_assoc, List.takeWhile_append_of_pos fun c hc =>
      isAsciiDigit_of_mem_ofNat hc]
    simp [isAsciiDigit]
  have heq := congrArg (List.takeWhile isAsciiDigit) h
  rw [htake, htake] at heq
  obtain rfl := ofNat_injective heq
  exact ⟨rfl, List.append_cancel_left h⟩

theorem printText_append_inj {u v s t : Str} (h : printText u ++ s = printText v ++ t) :
    u = v ∧ s = t := by
  induction u generalizing v with
  | nil => cases v <;> simp_all [printText]
  | cons c u ih =>
      cases v with
      | nil => simp [printText] at h
      | cons d v =>
          simp only [printText, List.cons_append, List.cons.injEq, true_and,
            List.append_assoc] at h
          obtain ⟨hc, hrest⟩ := printNat_append_inj h
          obtain ⟨rfl, rfl⟩ := ih hrest
          exact ⟨by rw [Char.toNat_inj.mp hc], rfl⟩

mutual

theorem print_append_inj : ∀ {v w : Value} {s t : Str}, print v ++ s = print w ++ t →
    v = w ∧ s = t
  | .null, w, s, t, h => by cases w <;> simp_all [print]
  | .bool a, w, s, t, h => by
      cases w <;> simp_all [print]
      rename_i b
      cases a <;> cases b <;> simp_all
  | .int n, w, s, t, h => by
      cases w <;> simp_all [print]
      obtain ⟨hn, rfl⟩ := printNat_append_inj h
      exact ⟨Encodable.encode_injective hn, rfl⟩
  | .float q, w, s, t, h => by
      cases w <;> simp_all [print]
      obtain ⟨hq, rfl⟩ := printNat_append_inj h
      exact ⟨Encodable.encode_injective hq, rfl⟩
  | .str u, w, s, t, h => by
      cases w <;> simp_all [print]
      exact printText_append_inj h
  | .list xs, w, s, t, h => by
      cases w <;> simp_all [print]
      exact printList_append_inj h
  | .tuple xs, w, s, t, h => by
      cases w <;> simp_all [print]
      exact printList_append_inj h
  | .dict kvs, w, s, t, h => by
      cases w <;> simp_all [print]
      exact printDict_append_inj h

theorem printList_append_inj : ∀ {vs ws : List Value} {s t : Str},
    printList vs ++ s = printList ws ++ t → vs = ws ∧ s = t
  | [], ws, s, t, h => by cases ws <;> simp_all [printList]
  | v :: vs, ws, s, t, h => by
      cases ws with
      | nil => simp [printList] at h
      | cons w ws =>
          simp only [printList, List.cons_append, List.cons.injEq, true_and,
            List.append_assoc] at h
          obtain ⟨rfl, hrest⟩ := print_append_inj h
          obtain ⟨rfl, rfl⟩ := printList_append_inj hrest
          exact ⟨rfl, rfl⟩

theorem printDict_append_inj : ∀ {d e : List (Str × Value)} {s t : Str},
    printDict d ++ s = printDict e ++ t → d = e ∧ s = t
  | [], e, s, t, h => by cases e <;> simp_all [printDict]
  | (k, v) :: d, e, s, t, h => by
      cases e with
      | nil => simp [printDict] at h
      | cons lw e =>
          obtain ⟨l, w⟩ := lw
          simp only [printDict, List.cons_append, List.cons.injEq, true_and,
            List.append_assoc] at h
          obtain ⟨rfl, hvalue⟩ := printText_append_inj h
          obtain ⟨rfl, hrest⟩ := print_append_inj hvalue
          obtain ⟨rfl, rfl⟩ := printDict_append_inj hrest
          exact ⟨rfl, rfl⟩

end

theorem isHex_printNat (n : ℕ) : ∀ c ∈ printNat n, isLowerHex c = true := by
  intro c hc
  rcases List.mem_append.mp hc with hc | hc
  · simp [isLowerHex, isAsciiDigit_of_mem_ofNat hc]
  · rw [List.mem_singleton.mp hc]
    rfl

theorem isHex_printText (s : Str) : ∀ c ∈ printText s, isLowerHex c = true := by
  induction s with
  | nil => exact forall_mem_of_all rfl
  | cons d s ih =>
      simp only [printText, List.cons_append, List.forall_mem_cons, List.forall_mem_append]
      exact ⟨rfl, isHex_printNat d.toNat, ih⟩

mutual

theorem isHex_print : ∀ (v : Value), ∀ c ∈ print v, isLowerHex c = true
  | .null => forall_mem_of_all rfl
  | .bool b => by cases b <;> exact forall_mem_of_all rfl
  | .int n => by
      rw [print, List.forall_mem_cons]
      exact ⟨rfl, isHex_printNat _⟩
  | .float q => by
      rw [print, List.forall_mem_cons]
      exact ⟨rfl, isHex_printNat _⟩
  | .str s => by
      rw [print, List.forall_mem_cons]
      exact ⟨rfl, isHex_printText s⟩
  | .list xs => by
      rw [print, List.forall_mem_cons]
      exact ⟨rfl, isHex_printList xs⟩
  | .tuple xs => by
      rw [print, List.forall_mem_cons]
      exact ⟨rfl, isHex_printList xs⟩
  | .dict kvs => by
      rw [print, List.forall_mem_cons]
      exact ⟨rfl, isHex_printDict kvs⟩

theorem isHex_printList : ∀ (vs : List Value), ∀ c ∈ printList vs, isLowerHex c = true
  | [] => forall_mem_of_all rfl
  | v :: vs => by
      simp only [printList, List.cons_append, List.forall_mem_cons, List.forall_mem_append]
      exact ⟨rfl, isHex_print v, isHex_printList vs⟩

theorem isHex_printDict : ∀ (d : List (Str × Value)), ∀ c ∈ printDict d, isLowerHex c = true
  | [] => forall_mem_of_all rfl
  | (k, v) :: d => by
      simp only [printDict, List.cons_append, List.forall_mem_cons, List.forall_mem_append]
      exact ⟨rfl, ⟨isHex_printText k, isHex_print v⟩, isHex_printDict d⟩

end

/-- A runtime whose digest is the printed canonical form. -/
def printing : Runtime :=
  ⟨fun v => ⟨print (canonical v), isHex_print _⟩, fun s => ⟨printText s, isHex_printText s⟩, ofInt,
    fun _ => []⟩

theorem collisionFree_printing : CollisionFree printing := by
  intro v w h
  have hprint : print (canonical v) = print (canonical w) := congrArg Hex.digits h
  have happend : print (canonical v) ++ [] = print (canonical w) ++ [] := by
    rw [List.append_nil, List.append_nil, hprint]
  exact (print_append_inj happend).1

end Gjallar.CanonicalJson

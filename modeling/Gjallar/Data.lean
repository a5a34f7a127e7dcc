import Gjallar.Text
import Mathlib.Data.Rat.Defs

/-!
# Dynamic values

The values a JSON document or a request body can hold, with the comparison, truth value and
conversions of the source language. Dictionaries are association lists; only lookups and the set
of keys are observable.
-/
namespace Gjallar.Data

open Gjallar.Text

inductive Value where
  | null
  | bool (b : Bool)
  | int (n : ℤ)
  | float (q : ℚ)
  | str (s : Str)
  | list (xs : List Value)
  | tuple (xs : List Value)
  | dict (kvs : List (Str × Value))

abbrev Dict := List (Str × Value)

namespace Value

mutual

def decEq : (a b : Value) → Decidable (a = b)
  | .null, .null => isTrue rfl
  | .bool a, .bool b => decidable_of_iff (a = b) (by simp)
  | .int a, .int b => decidable_of_iff (a = b) (by simp)
  | .float a, .float b => decidable_of_iff (a = b) (by simp)
  | .str a, .str b => decidable_of_iff (a = b) (by simp)
  | .list a, .list b => @decidable_of_iff _ (a = b) (by simp) (decEqList a b)
  | .tuple a, .tuple b => @decidable_of_iff _ (a = b) (by simp) (decEqList a b)
  | .dict a, .dict b => @decidable_of_iff _ (a = b) (by simp) (decEqDict a b)
  | .null, .bool _ | .null, .int _ | .null, .float _ | .null, .str _ | .null, .list _
  | .null, .tuple _ | .null, .dict _ => isFalse nofun
  | .bool _, .null | .bool _, .int _ | .bool _, .float _ | .bool _, .str _ | .bool _, .list _
  | .bool _, .tuple _ | .bool _, .dict _ => isFalse nofun
  | .int _, .null | .int _, .bool _ | .int _, .float _ | .int _, .str _ | .int _, .list _
  | .int _, .tuple _ | .int _, .dict _ => isFalse nofun
  | .float _, .null | .float _, .bool _ | .float _, .int _ | .float _, .str _
  | .float _, .list _ | .float _, .tuple _ | .float _, .dict _ => isFalse nofun
  | .str _, .null | .str _, .bool _ | .str _, .int _ | .str _, .float _ | .str _, .list _
  | .str _, .tuple _ | .str _, .dict _ => isFalse nofun
  | .list _, .null | .list _, .bool _ | .list _, .int _ | .list _, .float _ | .list _, .str _
  | .list _, .tuple _ | .list _, .dict _ => isFalse nofun
  | .tuple _, .null | .tuple _, .bool _ | .tuple _, .int _ | .tuple _, .float _
  | .tuple _, .str _ | .tuple _, .list _ | .tuple _, .dict _ => isFalse nofun
  | .dict _, .null | .dict _, .bool _ | .dict _, .int _ | .dict _, .float _ | .dict _, .str _
  | .dict _, .list _ | .dict _, .tuple _ => isFalse nofun

def decEqList : (a b : List Value) → Decidable (a = b)
  | [], [] => isTrue rfl
  | x :: xs, y :: ys =>
      @decidable_of_iff _ (x = y ∧ xs = ys) (by simp)
        (@instDecidableAnd _ _ (decEq x y) (decEqList xs ys))
  | [], _ :: _ => isFalse nofun
  | _ :: _, [] => isFalse nofun

def decEqDict : (a b : List (Str × Value)) → Decidable (a = b)
  | [], [] => isTrue rfl
  | (k, x) :: xs, (l, y) :: ys =>
      @decidable_of_iff _ (k = l ∧ x = y ∧ xs = ys) (by simp [and_assoc])
        (@instDecidableAnd _ _ inferInstance
          (@instDecidableAnd _ _ (decEq x y) (decEqDict xs ys)))
  | [], _ :: _ => isFalse nofun
  | _ :: _, [] => isFalse nofun

end

instance : DecidableEq Value := decEq

/-- The number a value compares as: booleans count as integers. -/
def number : Value → Option ℚ
  | .bool b => some (if b then 1 else 0)
  | .int n => some n
  | .float q => some q
  | _ => none

mutual

/-- `a == b`. -/
def eqv : Value → Value → Bool
  | .null, .null => true
  | .str a, .str b => a == b
  | .list a, .list b => eqvList a b
  | .tuple a, .tuple b => eqvList a b
  | .dict a, .dict b => a.length == b.length && eqvDict a b
  | a, b =>
      match number a, number b with
      | some p, some q => p == q
      | _, _ => false

def eqvList : List Value → List Value → Bool
  | [], [] => true
  | a :: as, b :: bs => eqv a b && eqvList as bs
  | _, _ => false

/-- Every entry of the first dictionary has an equal entry in the second. -/
def eqvDict : List (Str × Value) → List (Str × Value) → Bool
  | [], _ => true
  | (k, a) :: as, bs =>
      (match bs.lookup k with
        | some b => eqv a b
        | none => false) && eqvDict as bs

end

/-- `bool(v)`. -/
def truthy : Value → Bool
  | .null => false
  | .bool b => b
  | .int n => n != 0
  | .float q => q != 0
  | .str s => !s.isEmpty
  | .list xs => !xs.isEmpty
  | .tuple xs => !xs.isEmpty
  | .dict kvs => !kvs.isEmpty

/-- `type(v) is int`. -/
def asInt : Value → Option ℤ
  | .int n => some n
  | _ => none

/-- `isinstance(v, str)`. -/
def asStr : Value → Option Str
  | .str s => some s
  | _ => none

/-- `isinstance(v, dict)`. -/
def asDict : Value → Option Dict
  | .dict d => some d
  | _ => none

/-- `str(v)`; `repr` prints floats and containers. -/
def toText (repr : Value → Str) : Value → Str
  | .null => "None"
  | .bool b => if b then "True" else "False"
  | .int n => ofInt n
  | .str s => s
  | v => repr v

/-- The digits of an integer literal, with single underscores allowed between digits. -/
def digitsWithUnderscores : Bool → Str → Option Str
  | prevDigit, [] => if prevDigit then some [] else none
  | prevDigit, c :: s =>
      if c = '_' then if prevDigit then digitsWithUnderscores false s else none
      else if (digitValue c).isSome then (digitsWithUnderscores true s).map (c :: ·) else none

/-- `int(s)` for a text; `none` is the `ValueError`. -/
def parseInt (s : Str) : Option ℤ :=
  let digits (t : Str) : Option ℤ := do
    let ds ← digitsWithUnderscores false t
    let n ← toInt ds
    return (n : ℤ)
  match strip s with
  | '-' :: t => (digits t).map (- ·)
  | '+' :: t => digits t
  | t => digits t

/-- `int(v)`; `none` is the `TypeError` or `ValueError`. -/
def toInteger : Value → Option ℤ
  | .bool b => some (if b then 1 else 0)
  | .int n => some n
  | .float q => some (q.num.tdiv q.den)
  | .str s => parseInt s
  | _ => none

@[simp] theorem eqv_str (a b : Str) : eqv (.str a) (.str b) = (a == b) := by simp [eqv]
@[simp] theorem eqv_null : eqv .null .null = true := by simp [eqv]
@[simp] theorem eqv_int (a b : ℤ) : eqv (.int a) (.int b) = (a == b) := by
  rw [Bool.eq_iff_iff]
  simp [eqv, number]

end Value

namespace Dict

/-- `d.get(key)`. -/
def get (d : Dict) (key : Str) : Option Value := d.lookup key

/-- `d.get(key, default)`. -/
def getD (d : Dict) (key : Str) (default : Value) : Value := (get d key).getD default

def keys (d : Dict) : List Str := d.map Prod.fst

/-- `key in d`. -/
def has (d : Dict) (key : Str) : Bool := (keys d).contains key

/-- `{**d, **patch}`. -/
def merge (d patch : Dict) : Dict := patch ++ d.filter fun kv => !has patch kv.1

/-- `set(d) == set(names)`. -/
def keysAre (d : Dict) (names : List Str) : Bool :=
  (keys d).all names.contains && names.all (has d)

/-- `str(d.get(key) or "").strip()`. -/
def text (repr : Value → Str) (d : Dict) (key : Str) : Str :=
  match get d key with
  | some v => if v.truthy then strip (v.toText repr) else []
  | none => []

@[simp] theorem get_nil (key : Str) : get [] key = none := rfl

@[simp] theorem get_cons (k key : Str) (v : Value) (d : Dict) :
    get ((k, v) :: d) key = if key = k then some v else get d key := by
  by_cases h : key = k
  · simp [get, h]
  · have hb : (key == k) = false := beq_eq_false_iff_ne.mpr h
    simp [get, List.lookup_cons, hb, h]

theorem get_eq_none_iff (d : Dict) (key : Str) : get d key = none ↔ has d key = false := by
  induction d with
  | nil => simp [has, keys]
  | cons kv d ih =>
      obtain ⟨k, v⟩ := kv
      by_cases h : key = k <;> simp_all [has, keys]

theorem get_append (d e : Dict) (key : Str) : get (d ++ e) key = (get d key).or (get e key) := by
  induction d with
  | nil => simp
  | cons kv d ih =>
      obtain ⟨k, v⟩ := kv
      by_cases h : key = k <;> simp_all

theorem get_filter (p : Str → Bool) (d : Dict) (key : Str) :
    get (d.filter fun kv => p kv.1) key = if p key then get d key else none := by
  induction d with
  | nil => simp
  | cons kv d ih =>
      obtain ⟨k, v⟩ := kv
      by_cases hk : p k <;> by_cases h : key = k <;> simp_all

/-- A key of the patch is looked up in the patch, the others in the old dictionary. -/
@[simp] theorem get_merge (d patch : Dict) (key : Str) :
    get (merge d patch) key = (get patch key).or (get d key) := by
  rw [merge, get_append, get_filter (fun k => !has patch k)]
  cases h : get patch key with
  | none => simp [(get_eq_none_iff patch key).mp h]
  | some v => simp

theorem get_map_value (f : Str → Value → Value) (d : Dict) (key : Str) :
    get (d.map fun kv => (kv.1, f kv.1 kv.2)) key = (get d key).map (f key) := by
  induction d with
  | nil => rfl
  | cons kv d ih =>
      obtain ⟨k, v⟩ := kv
      by_cases h : key = k
      · subst h; simp
      · simp [h, ih]

end Dict

end Gjallar.Data

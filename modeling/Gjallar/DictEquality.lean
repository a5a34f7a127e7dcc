import Mathlib.Data.List.Perm.Subperm
import Gjallar.Data

/-!
# Entries and equality of dictionaries

A dictionary without repeated keys is known from its lookups. Two of them compare equal when they
have the same keys and the entries under each key compare equal. Two lists compare equal when they
have one length and their items compare equal in turn.
-/
namespace Gjallar.Data

open Gjallar.Text

namespace Dict

theorem mem_of_get {d : Dict} {key : Str} {v : Value} (h : get d key = some v) : (key, v) ∈ d := by
  induction d with
  | nil => cases h
  | cons kv d ih =>
      rw [get_cons] at h
      split_ifs at h with hkey
      · cases h
        rw [hkey]
        exact List.mem_cons_self
      · exact List.mem_cons_of_mem _ (ih h)

theorem get_of_mem {d : Dict} (hnodup : (keys d).Nodup) {key : Str} {v : Value}
    (h : (key, v) ∈ d) : get d key = some v := by
  induction d with
  | nil => cases h
  | cons kv d ih =>
      obtain ⟨l, w⟩ := kv
      obtain ⟨hl, hd⟩ := List.nodup_cons.mp hnodup
      rw [get_cons]
      rcases List.mem_cons.mp h with heq | htail
      · cases heq
        exact if_pos rfl
      · have hne : key ≠ l := by
          rintro rfl
          exact hl (List.mem_map.mpr ⟨(key, v), htail, rfl⟩)
        rw [if_neg hne]
        exact ih hd htail

theorem has_iff {d : Dict} {key : Str} : has d key = (get d key).isSome := by
  cases h : get d key with
  | none => exact (get_eq_none_iff d key).mp h
  | some v =>
      by_contra hne
      rw [Option.isSome_some, Bool.not_eq_true] at hne
      rw [(get_eq_none_iff d key).mpr hne] at h
      cases h

theorem mem_keys_iff {d : Dict} {key : Str} : key ∈ keys d ↔ ∃ v, get d key = some v := by
  rw [← Option.isSome_iff_exists, ← has_iff, has, List.contains_iff_mem]

end Dict

namespace Value

theorem eqvDict_iff {d e : Dict} : eqvDict d e = true ↔
    ∀ kv ∈ d, ∃ b, Dict.get e kv.1 = some b ∧ eqv kv.2 b = true := by
  induction d with
  | nil => simp [eqvDict]
  | cons kv d ih =>
      obtain ⟨k, a⟩ := kv
      rw [eqvDict, Bool.and_eq_true, ih, List.forall_mem_cons]
      apply and_congr_left
      intro _
      have hlookup : List.lookup k e = Dict.get e k := rfl
      rw [hlookup]
      cases Dict.get e k <;> simp

/-- Dictionaries compare equal when each key is in both or in none and its entries compare
equal. -/
theorem eqv_dict_iff {d e : Dict} (hd : (Dict.keys d).Nodup) (he : (Dict.keys e).Nodup) :
    eqv (.dict d) (.dict e) = true ↔
      ∀ key, Option.Rel (fun a b => eqv a b = true) (Dict.get d key) (Dict.get e key) := by
  have hlength : ∀ c : Dict, (Dict.keys c).length = c.length := fun c => List.length_map _
  rw [eqv, Bool.and_eq_true, beq_iff_eq, eqvDict_iff]
  constructor
  · rintro ⟨hlen, hentries⟩ key
    have hsub : Dict.keys d ⊆ Dict.keys e := by
      intro k hk
      obtain ⟨a, ha⟩ := Dict.mem_keys_iff.mp hk
      obtain ⟨b, hb, -⟩ := hentries (k, a) (Dict.mem_of_get ha)
      exact Dict.mem_keys_iff.mpr ⟨b, hb⟩
    have hperm : (Dict.keys d).Perm (Dict.keys e) :=
      (hd.subperm hsub).perm_of_length_le (by rw [hlength, hlength, hlen])
    cases hget : Dict.get d key with
    | some a =>
        obtain ⟨b, hb, hab⟩ := hentries (key, a) (Dict.mem_of_get hget)
        rw [hb]
        exact .some hab
    | none =>
        have hnone : Dict.get e key = none := by
          by_contra hsome
          obtain ⟨b, hb⟩ := Option.ne_none_iff_exists'.mp hsome
          obtain ⟨a, ha⟩ := Dict.mem_keys_iff.mp
            (hperm.mem_iff.mpr (Dict.mem_keys_iff.mpr ⟨b, hb⟩))
          rw [hget] at ha
          cases ha
        rw [hnone]
        exact .none
  · intro h
    have hmem : ∀ key, key ∈ Dict.keys d ↔ key ∈ Dict.keys e := by
      intro key
      rw [Dict.mem_keys_iff, Dict.mem_keys_iff]
      have hrel := h key
      revert hrel
      cases Dict.get d key <;> cases Dict.get e key <;> intro hrel
      · simp
      · cases hrel
      · cases hrel
      · simp
    refine ⟨?_, ?_⟩
    · rw [← hlength d, ← hlength e]
      exact ((List.perm_ext_iff_of_nodup hd he).mpr hmem).length_eq
    · intro kv hkv
      have hrel := h kv.1
      rw [Dict.get_of_mem hd hkv] at hrel
      cases hget : Dict.get e kv.1 with
      | none =>
          rw [hget] at hrel
          cases hrel
      | some b =>
          rw [hget] at hrel
          cases hrel with
          | some hab => exact ⟨b, rfl, hab⟩

theorem eqvList_iff {xs ys : List Value} : eqvList xs ys = true ↔ xs.length = ys.length ∧
    ∀ (i : ℕ) (x y : Value), xs[i]? = some x → ys[i]? = some y → eqv x y = true := by
  induction xs generalizing ys with
  | nil => cases ys <;> simp [eqvList]
  | cons v xs ih =>
      cases ys with
      | nil => simp [eqvList]
      | cons w ys =>
          rw [eqvList, Bool.and_eq_true, ih, List.length_cons, List.length_cons,
            Nat.add_right_cancel_iff]
          constructor
          · rintro ⟨hvw, hlength, h⟩
            refine ⟨hlength, fun i x y hx hy => ?_⟩
            cases i with
            | zero =>
                cases hx
                cases hy
                exact hvw
            | succ i => exact h i x y hx hy
          · rintro ⟨hlength, h⟩
            exact ⟨h 0 v w rfl rfl, hlength, fun i x y hx hy => h (i + 1) x y hx hy⟩

/-- A value that JSON has: lists but no tuples, and each key of an object once. -/
inductive IsJson : Value → Prop
  | null : IsJson .null
  | bool (b : Bool) : IsJson (.bool b)
  | int (n : ℤ) : IsJson (.int n)
  | float (q : ℚ) : IsJson (.float q)
  | str (s : Str) : IsJson (.str s)
  | list {xs : List Value} (h : ∀ x ∈ xs, IsJson x) : IsJson (.list xs)
  | dict {d : Dict} (hkeys : (Dict.keys d).Nodup) (h : ∀ kv ∈ d, IsJson kv.2) : IsJson (.dict d)

end Value

end Gjallar.Data

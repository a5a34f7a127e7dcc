import Mathlib.Data.List.Nodup
import Mathlib.Data.List.Pairwise

/-!
# Tables with unique constraints

A table is a list of rows in which no two rows share a primary key or violate a unique index. The
index is a relation `clash` on rows. Inserting and replacing a row fail when the result would
break a constraint, so a table that breaks one cannot be built.
-/
namespace Gjallar.Tables

structure Table (α κ : Type) [DecidableEq κ] (key : α → κ) (clash : α → α → Bool) where
  rows : List α
  keys_nodup : (rows.map key).Nodup
  no_clash : rows.Pairwise fun r s => clash r s = false

variable {α κ : Type} [DecidableEq κ] {key : α → κ} {clash : α → α → Bool}

namespace Table

instance : Membership α (Table α κ key clash) := ⟨fun t r => r ∈ t.rows⟩

theorem mem_def {t : Table α κ key clash} {r : α} : r ∈ t ↔ r ∈ t.rows := Iff.rfl

def empty : Table α κ key clash := ⟨[], by simp, by simp⟩

instance [DecidableEq α] : DecidableEq (Table α κ key clash) := fun s t =>
  decidable_of_iff (s.rows = t.rows) ⟨by cases s; cases t; simp, by rintro rfl; rfl⟩

@[ext] theorem ext {s t : Table α κ key clash} (h : s.rows = t.rows) : s = t := by
  cases s; cases t; simpa using h

/-- The row with a key. -/
def get (t : Table α κ key clash) (k : κ) : Option α := t.rows.find? fun r => key r = k

/-- A table from rows, when they satisfy the constraints. -/
def ofRows (rows : List α) : Option (Table α κ key clash) :=
  if h : (rows.map key).Nodup ∧ rows.Pairwise (fun r s => clash r s = false) then
    some ⟨rows, h.1, h.2⟩
  else none

/-- Insert a new row; `none` is the integrity error. -/
def insert (t : Table α κ key clash) (r : α) : Option (Table α κ key clash) :=
  ofRows (t.rows ++ [r])

/-- Write back the row with the same key; `none` is the integrity error. -/
def put (t : Table α κ key clash) (r : α) : Option (Table α κ key clash) :=
  ofRows (t.rows.map fun s => if key s = key r then r else s)

/-- Write back several rows at once. -/
def putAll (t : Table α κ key clash) (rs : List α) : Option (Table α κ key clash) :=
  rs.foldl (fun t r => t.bind (put · r)) (some t)

theorem ofRows_eq_some {rows : List α} {t : Table α κ key clash} :
    ofRows rows = some t ↔ t.rows = rows := by
  unfold ofRows
  constructor
  · intro h
    split at h
    · cases h; rfl
    · cases h
  · rintro rfl
    rw [dif_pos ⟨t.keys_nodup, t.no_clash⟩]

theorem get_eq_some {t : Table α κ key clash} {k : κ} {r : α} :
    t.get k = some r ↔ r ∈ t ∧ key r = k := by
  constructor
  · intro h
    exact ⟨List.mem_of_find?_eq_some h, by simpa using List.find?_some h⟩
  · rintro ⟨hr, rfl⟩
    cases hf : t.get (key r) with
    | none =>
        rw [get, List.find?_eq_none] at hf
        exact absurd (by simp) (hf r hr)
    | some s =>
        have hs : s ∈ t.rows ∧ key s = key r :=
          ⟨List.mem_of_find?_eq_some hf, by simpa using List.find?_some hf⟩
        rw [List.inj_on_of_nodup_map t.keys_nodup hs.1 hr hs.2]

theorem get_of_mem {t : Table α κ key clash} {r : α} (h : r ∈ t) : t.get (key r) = some r :=
  get_eq_some.mpr ⟨h, rfl⟩

theorem get_eq_none {t : Table α κ key clash} {k : κ} :
    t.get k = none ↔ ∀ r ∈ t, key r ≠ k := by
  simp [get, List.find?_eq_none, mem_def]

theorem mem_of_get {t : Table α κ key clash} {k : κ} {r : α} (h : t.get k = some r) : r ∈ t :=
  (get_eq_some.mp h).1

theorem key_of_get {t : Table α κ key clash} {k : κ} {r : α} (h : t.get k = some r) :
    key r = k := (get_eq_some.mp h).2

/-- Two rows with the same key are the same row. -/
theorem eq_of_key {t : Table α κ key clash} {r s : α} (hr : r ∈ t) (hs : s ∈ t)
    (h : key r = key s) : r = s := List.inj_on_of_nodup_map t.keys_nodup hr hs h

/-- Two different rows do not violate the index. -/
theorem not_clash (hsymm : ∀ r s, clash r s = clash s r) {t : Table α κ key clash} {r s : α}
    (hr : r ∈ t) (hs : s ∈ t) (hne : r ≠ s) : clash r s = false := by
  have : Std.Symm fun r s => clash r s = false := ⟨fun r s h => by rw [hsymm, h]⟩
  exact t.no_clash.forall hr hs hne

theorem insert_eq_some {t t' : Table α κ key clash} {r : α} (h : t.insert r = some t') :
    t'.rows = t.rows ++ [r] := ofRows_eq_some.mp h

theorem mem_insert {t t' : Table α κ key clash} {r s : α} (h : t.insert r = some t') :
    s ∈ t' ↔ s ∈ t ∨ s = r := by simp [mem_def, insert_eq_some h]

theorem get_insert_key {t t' : Table α κ key clash} {r : α} (h : t.insert r = some t') :
    t.get (key r) = none := by
  rw [get_eq_none]
  intro s hs heq
  have hn := t'.keys_nodup
  rw [insert_eq_some h, List.map_append, List.nodup_append] at hn
  exact hn.2.2 (key s) (List.mem_map_of_mem hs) (key r) (by simp) heq

theorem get_insert {t t' : Table α κ key clash} {r : α} (h : t.insert r = some t') (k : κ) :
    t'.get k = if key r = k then some r else t.get k := by
  by_cases hk : key r = k
  · rw [if_pos hk, get_eq_some]
    exact ⟨(mem_insert h).mpr (Or.inr rfl), hk⟩
  · rw [if_neg hk]
    simp [get, insert_eq_some h, List.find?_append, hk]

/-- An insertion that fails meets a row of the same key or in conflict with it. -/
theorem exists_of_insert_eq_none {t : Table α κ key clash} {r : α} (h : t.insert r = none) :
    ∃ s ∈ t, key s = key r ∨ clash s r = true := by
  by_contra hno
  have hall : ∀ s ∈ t.rows, key s ≠ key r ∧ clash s r = false := by
    intro s hs
    rw [← Bool.not_eq_true, ← not_or]
    exact fun hc => hno ⟨s, hs, hc⟩
  have hnodup : ((t.rows ++ [r]).map key).Nodup := by
    rw [List.map_append, List.map_singleton, List.nodup_append]
    refine ⟨t.keys_nodup, List.nodup_singleton _, ?_⟩
    rintro _ hk _ hr rfl
    obtain ⟨s, hs, hk⟩ := List.mem_map.mp hk
    exact (hall s hs).1 (hk.trans (List.mem_singleton.mp hr))
  have hclash : (t.rows ++ [r]).Pairwise fun r s => clash r s = false := by
    refine List.pairwise_append.mpr ⟨t.no_clash, List.pairwise_singleton _ _, ?_⟩
    intro s hs u hu
    rw [List.mem_singleton.mp hu]
    exact (hall s hs).2
  rw [insert, ofRows, dif_pos ⟨hnodup, hclash⟩] at h
  cases h

theorem put_eq_some {t t' : Table α κ key clash} {r : α} (h : t.put r = some t') :
    t'.rows = t.rows.map fun s => if key s = key r then r else s := ofRows_eq_some.mp h

/-- After a write-back the written key reads the new row and every other key is unchanged. -/
theorem get_put {t t' : Table α κ key clash} {r : α} (h : t.put r = some t') (k : κ) :
    t'.get k = if key r = k then (t.get k).map (fun _ => r) else t.get k := by
  have hrows : t'.get k =
      (t.rows.map fun s => if key s = key r then r else s).find? fun s => key s = k := by
    rw [get, put_eq_some h]
  rw [hrows, get]
  induction t.rows with
  | nil => simp
  | cons s rows ih =>
      by_cases hs : key s = key r
      · rw [List.map_cons, if_pos hs, List.find?_cons, List.find?_cons, hs, ih]
        by_cases hk : key r = k <;> simp [hk]
      · rw [List.map_cons, if_neg hs, List.find?_cons, List.find?_cons, ih]
        by_cases hk : key r = k
        · have hsk : key s ≠ k := hk ▸ hs
          simp [hk, hsk]
        · by_cases hsk : key s = k <;> simp [hk, hsk]

/-- After a write-back of an existing row its key reads the new row. -/
theorem get_put_self {t t' : Table α κ key clash} {r r' : α} {k : κ} (hr : t.get k = some r)
    (h : t.put r' = some t') (hk : key r' = k) : t'.get k = some r' := by
  rw [get_put h, if_pos hk, hr, Option.map_some]

theorem foldl_bind_none (rs : List α) :
    rs.foldl (fun (t : Option (Table α κ key clash)) r => t.bind (put · r)) none = none := by
  induction rs with
  | nil => rfl
  | cons r rs ih => exact ih

/-- Writing back rows of different keys leaves the other keys alone and stores each row. -/
theorem get_putAll {t t' : Table α κ key clash} {rs : List α} (hnodup : (rs.map key).Nodup)
    (h : t.putAll rs = some t') :
    (∀ k, (∀ r ∈ rs, key r ≠ k) → t'.get k = t.get k) ∧
      ∀ r ∈ rs, (t.get (key r)).isSome = true → t'.get (key r) = some r := by
  induction rs generalizing t with
  | nil =>
      cases h
      exact ⟨fun _ _ => rfl, by simp⟩
  | cons r rs ih =>
      rw [List.map_cons, List.nodup_cons] at hnodup
      simp only [putAll, List.foldl_cons, Option.bind_some] at h
      cases hu : t.put r with
      | none =>
          rw [hu, foldl_bind_none] at h
          cases h
      | some u =>
          rw [hu] at h
          obtain ⟨hother, hstored⟩ := ih hnodup.2 h
          have hfresh : ∀ s ∈ rs, key s ≠ key r := fun s hs heq =>
            hnodup.1 (heq ▸ List.mem_map_of_mem hs)
          refine ⟨fun k hk => ?_, fun s hs hsome => ?_⟩
          · rw [List.forall_mem_cons] at hk
            rw [hother k hk.2, get_put hu, if_neg hk.1]
          rcases List.mem_cons.mp hs with rfl | hs
          · obtain ⟨old, hold⟩ := Option.isSome_iff_exists.mp hsome
            rw [hother (key s) hfresh]
            exact get_put_self hold hu rfl
          · refine hstored s hs ?_
            rw [get_put hu, if_neg fun heq => hfresh s hs heq.symm]
            exact hsome

/-! ### Rewriting rows in place -/

/-- `t'` is `t` with rows rewritten in place, each as the relation allows. -/
def Rewrites (R : α → α → Prop) (t t' : Table α κ key clash) : Prop :=
  ∃ f : α → α, t'.rows = t.rows.map f ∧ ∀ r ∈ t, key (f r) = key r ∧ R r (f r)

variable {R : α → α → Prop}

theorem Rewrites.refl (hR : ∀ r, R r r) (t : Table α κ key clash) : t.Rewrites R t :=
  ⟨id, (List.map_id _).symm, fun r _ => ⟨rfl, hR r⟩⟩

theorem Rewrites.exists_of_mem {t t' : Table α κ key clash} (h : t.Rewrites R t') {r' : α}
    (hr' : r' ∈ t') : ∃ r ∈ t, key r' = key r ∧ R r r' := by
  obtain ⟨f, hf, hall⟩ := h
  rw [mem_def, hf, List.mem_map] at hr'
  obtain ⟨r, hr, rfl⟩ := hr'
  exact ⟨r, hr, hall r hr⟩

theorem Rewrites.exists_of_get {t t' : Table α κ key clash} (h : t.Rewrites R t') {k : κ} {r : α}
    (hr : t.get k = some r) : ∃ r', t'.get k = some r' ∧ R r r' := by
  obtain ⟨f, hf, hall⟩ := h
  obtain ⟨hmem, rfl⟩ := get_eq_some.mp hr
  refine ⟨f r, get_eq_some.mpr ⟨?_, (hall r hmem).1⟩, (hall r hmem).2⟩
  rw [mem_def, hf]
  exact List.mem_map_of_mem hmem

theorem Rewrites.keys_eq {t t' : Table α κ key clash} (h : t.Rewrites R t') :
    t'.rows.map key = t.rows.map key := by
  obtain ⟨f, hf, hall⟩ := h
  rw [hf, List.map_map]
  exact List.map_congr_left fun r hr => (hall r hr).1

/-- One more write-back of a row that the relation allows. -/
theorem Rewrites.put {t u u' : Table α κ key clash} (h : t.Rewrites R u) {r r' : α} (hr : r ∈ t)
    (hR : R r r') (hput : u.put r' = some u') (hk : key r' = key r) : t.Rewrites R u' := by
  obtain ⟨f, hf, hall⟩ := h
  refine ⟨fun s => if key s = key r then r' else f s, ?_, fun s hs => ?_⟩
  · rw [put_eq_some hput, hf, List.map_map]
    refine List.map_congr_left fun s hs => ?_
    simp only [Function.comp_apply, (hall s hs).1, hk]
  · by_cases hsr : key s = key r
    · have heq : s = r := eq_of_key hs hr hsr
      simp only [hsr, if_true]
      exact ⟨hk, heq ▸ hR⟩
    · simpa only [hsr, if_false] using hall s hs

theorem rewrites_put (hR : ∀ r, R r r) {t t' : Table α κ key clash} {r r' : α} (hr : r ∈ t)
    (hrr' : R r r') (hput : t.put r' = some t') (hk : key r' = key r) : t.Rewrites R t' :=
  (Rewrites.refl hR t).put hr hrr' hput hk

theorem rewrites_putAll (hR : ∀ r, R r r) {t t' : Table α κ key clash} {rs : List α}
    (hrs : ∀ r' ∈ rs, ∃ r ∈ t, key r' = key r ∧ R r r') (hput : t.putAll rs = some t') :
    t.Rewrites R t' := by
  suffices hgen : ∀ u, t.Rewrites R u → u.putAll rs = some t' → t.Rewrites R t' from
    hgen t (.refl hR t) hput
  clear hput
  induction rs with
  | nil =>
      intro u hu hput
      cases hput
      exact hu
  | cons r' rs ih =>
      intro u hu hput
      rw [List.forall_mem_cons] at hrs
      obtain ⟨⟨r, hr, hk, hrr'⟩, hrest⟩ := hrs
      simp only [putAll, List.foldl_cons, Option.bind_some] at hput
      cases hu' : u.put r' with
      | none =>
          rw [hu', foldl_bind_none] at hput
          cases hput
      | some u' =>
          rw [hu'] at hput
          exact ih hrest u' (hu.put hr hrr' hu' hk) hput

end Table

end Gjallar.Tables

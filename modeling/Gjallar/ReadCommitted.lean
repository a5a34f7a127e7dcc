import Mathlib.Data.List.Nodup
import Mathlib.Logic.Function.Basic

/-!
# Read-committed transactions with row locks

The newest committed version of every row, and the running transactions: which rows each has
locked and which new versions it has written. A row is written under its lock, a lock is granted
when no other transaction holds it, and both are given up when the transaction ends. A statement
sees the committed rows under the transaction's own writes.
-/
namespace Gjallar.ReadCommitted

/-- Rows with pairwise different keys. -/
structure Rows (α κ : Type) (key : α → κ) where
  list : List α
  nodup : (list.map key).Nodup

namespace Rows

variable {α κ : Type} {key : α → κ} [DecidableEq κ]

def get (rows : Rows α κ key) (k : κ) : Option α := rows.list.find? fun r => key r = k

theorem get_eq_some {rows : Rows α κ key} {k : κ} {r : α} :
    rows.get k = some r ↔ r ∈ rows.list ∧ key r = k := by
  constructor
  · intro h
    exact ⟨List.mem_of_find?_eq_some h, by simpa using List.find?_some h⟩
  · rintro ⟨hr, rfl⟩
    cases hf : rows.get (key r) with
    | none =>
        rw [get, List.find?_eq_none] at hf
        exact absurd (by simp) (hf r hr)
    | some s =>
        have hs : s ∈ rows.list := List.mem_of_find?_eq_some hf
        have hkey : key s = key r := by simpa using List.find?_some hf
        rw [List.inj_on_of_nodup_map rows.nodup hs hr hkey]

theorem get_key {rows : Rows α κ key} {k : κ} {r : α} (h : rows.get k = some r) : key r = k :=
  (get_eq_some.mp h).2

theorem get_of_mem {rows : Rows α κ key} {r : α} (h : r ∈ rows.list) :
    rows.get (key r) = some r := get_eq_some.mpr ⟨h, rfl⟩

theorem get_eq_none {rows : Rows α κ key} {k : κ} :
    rows.get k = none ↔ ∀ r ∈ rows.list, key r ≠ k := by
  simp [get, List.find?_eq_none]

/-- Replace the row of the same key, or add the row. -/
def put (rows : Rows α κ key) (r : α) : Rows α κ key :=
  if h : rows.get (key r) = none then
    ⟨rows.list ++ [r], by
      rw [List.map_append, List.nodup_append]
      refine ⟨rows.nodup, List.nodup_singleton _, ?_⟩
      rintro _ hk _ hr rfl
      obtain ⟨s, hs, hk⟩ := List.mem_map.mp hk
      rw [List.map_singleton, List.mem_singleton] at hr
      exact get_eq_none.mp h s hs (hk.trans hr)⟩
  else
    ⟨rows.list.map fun s => if key s = key r then r else s, by
      have hmap : (rows.list.map fun s => if key s = key r then r else s).map key =
          rows.list.map key := by
        rw [List.map_map]
        refine List.map_congr_left fun s _ => ?_
        by_cases hs : key s = key r
        · simp [hs]
        · simp [hs]
      rw [hmap]
      exact rows.nodup⟩

theorem mem_put {rows : Rows α κ key} {r s : α} :
    s ∈ (rows.put r).list ↔ s = r ∨ (s ∈ rows.list ∧ key s ≠ key r) := by
  unfold put
  split
  · rename_i h
    rw [List.mem_append, List.mem_singleton]
    constructor
    · rintro (hs | rfl)
      · exact .inr ⟨hs, get_eq_none.mp h s hs⟩
      · exact .inl rfl
    · rintro (rfl | ⟨hs, -⟩)
      · exact .inr rfl
      · exact .inl hs
  · rename_i h
    obtain ⟨old, hold⟩ := Option.ne_none_iff_exists'.mp h
    obtain ⟨hmem, hkey⟩ := get_eq_some.mp hold
    rw [List.mem_map]
    constructor
    · rintro ⟨x, hx, rfl⟩
      by_cases hk : key x = key r
      · exact .inl (if_pos hk)
      · rw [if_neg hk]
        exact .inr ⟨hx, hk⟩
    · rintro (rfl | ⟨hs, hk⟩)
      · exact ⟨old, hmem, if_pos hkey⟩
      · exact ⟨s, hs, if_neg hk⟩

theorem get_put (rows : Rows α κ key) (r : α) (k : κ) :
    (rows.put r).get k = if key r = k then some r else rows.get k := by
  by_cases hk : key r = k
  · rw [if_pos hk, get_eq_some]
    exact ⟨mem_put.mpr (.inl rfl), hk⟩
  · rw [if_neg hk]
    cases hget : rows.get k with
    | none =>
        rw [get_eq_none] at hget ⊢
        intro s hs
        rcases mem_put.mp hs with rfl | ⟨hs, -⟩
        · exact hk
        · exact hget s hs
    | some s =>
        rw [get_eq_some] at hget ⊢
        refine ⟨mem_put.mpr (.inr ⟨hget.1, ?_⟩), hget.2⟩
        rw [hget.2]
        exact Ne.symm hk

/-- Put several rows, the last first. -/
def putAll (rows : Rows α κ key) (rs : List α) : Rows α κ key := rs.foldr (fun r t => t.put r) rows

theorem get_putAll (rows : Rows α κ key) (rs : List α) (k : κ) :
    (rows.putAll rs).get k = (rs.find? fun r => key r = k).or (rows.get k) := by
  induction rs with
  | nil => rfl
  | cons r rs ih =>
      have hcons : rows.putAll (r :: rs) = (rows.putAll rs).put r := rfl
      rw [hcons, get_put, ih, List.find?_cons]
      by_cases hk : key r = k
      · rw [if_pos hk, decide_eq_true hk]
        rfl
      · rw [if_neg hk, decide_eq_false hk]

end Rows

/-- A running transaction: the keys of the rows it has locked, and the versions it has written,
the newest first. -/
structure Txn (α κ : Type) where
  locks : List κ := []
  writes : List α := []

/-- The committed rows and the running transactions, which are numbered as they begin. -/
structure Store (α κ : Type) (key : α → κ) where
  rows : Rows α κ key
  txns : ℕ → Option (Txn α κ) := fun _ => none
  next : ℕ := 0

namespace Store

variable {α κ : Type} {key : α → κ} [DecidableEq κ]

/-- What a transaction sees. -/
def visible (s : Store α κ key) (i : ℕ) : Rows α κ key :=
  s.rows.putAll ((s.txns i).elim [] Txn.writes)

/-- Does no other transaction hold the lock? -/
def isFree (s : Store α κ key) (i : ℕ) (k : κ) : Bool :=
  (List.range s.next).all fun j => j = i || (s.txns j).all fun t => !t.locks.contains k

def set (s : Store α κ key) (i : ℕ) (t : Option (Txn α κ)) : Store α κ key :=
  { s with txns := Function.update s.txns i t }

def start (s : Store α κ key) : Store α κ key := { s.set s.next (some {}) with next := s.next + 1 }

/-- Lock a row for a running transaction, and add versions of it. -/
def grab (s : Store α κ key) (i : ℕ) (k : κ) (versions : List α) : Store α κ key :=
  match s.txns i with
  | none => s
  | some t => s.set i (some ⟨k :: t.locks, versions ++ t.writes⟩)

def lock (s : Store α κ key) (i : ℕ) (k : κ) : Store α κ key := s.grab i k []

/-- Write a version of a row, which locks it. -/
def write (s : Store α κ key) (i : ℕ) (r : α) : Store α κ key := s.grab i (key r) [r]

def abort (s : Store α κ key) (i : ℕ) : Store α κ key := s.set i none

def commit (s : Store α κ key) (i : ℕ) : Store α κ key :=
  { s.set i none with rows := s.visible i }

/-- What statements do to a store. -/
inductive Step (s : Store α κ key) : Store α κ key → Prop
  | start : Step s s.start
  | grab {i : ℕ} {k : κ} {versions : List α} (hfree : s.isFree i k = true)
      (hkey : ∀ r ∈ versions, key r = k) : Step s (s.grab i k versions)
  | abort {i : ℕ} : Step s (s.abort i)
  | commit {i : ℕ} : Step s (s.commit i)

/-- The discipline of locking: transactions have numbers below the next one, no two hold the same
lock, and a version is written under the lock of its row. -/
structure Disciplined (s : Store α κ key) : Prop where
  numbered : ∀ i t, s.txns i = some t → i < s.next
  exclusive : ∀ i j t u k, s.txns i = some t → s.txns j = some u → k ∈ t.locks → k ∈ u.locks → i = j
  locked : ∀ i t r, s.txns i = some t → r ∈ t.writes → key r ∈ t.locks

section Frame

omit [DecidableEq κ]

@[simp] theorem rows_grab (s : Store α κ key) (i : ℕ) (k : κ) (versions : List α) :
    (s.grab i k versions).rows = s.rows := by
  unfold grab
  split <;> rfl

@[simp] theorem next_grab (s : Store α κ key) (i : ℕ) (k : κ) (versions : List α) :
    (s.grab i k versions).next = s.next := by
  unfold grab
  split <;> rfl

theorem txns_set (s : Store α κ key) (i j : ℕ) (t : Option (Txn α κ)) :
    (s.set i t).txns j = if j = i then t else s.txns j := Function.update_apply _ _ _ _

theorem txns_start (s : Store α κ key) (j : ℕ) :
    s.start.txns j = if j = s.next then some {} else s.txns j := txns_set s s.next j _

theorem txns_abort (s : Store α κ key) (i j : ℕ) :
    (s.abort i).txns j = if j = i then none else s.txns j := txns_set s i j none

theorem txns_grab (s : Store α κ key) (i j : ℕ) (k : κ) (versions : List α) :
    (s.grab i k versions).txns j = if j = i then
      (s.txns i).map fun t => ⟨k :: t.locks, versions ++ t.writes⟩ else s.txns j := by
  unfold grab
  cases h : s.txns i with
  | none =>
      by_cases hj : j = i
      · rw [if_pos hj, hj]
        exact h
      · rw [if_neg hj]
  | some t => exact txns_set s i j _

end Frame

theorem txns_commit (s : Store α κ key) (i j : ℕ) :
    (s.commit i).txns j = if j = i then none else s.txns j := txns_set s i j none

section Visible

variable {s : Store α κ key} {i j : ℕ} {t : Txn α κ}

theorem get_visible (ht : s.txns i = some t) (k : κ) :
    (s.visible i).get k = (t.writes.find? fun r => key r = k).or (s.rows.get k) := by
  rw [visible, ht, Option.elim_some, Rows.get_putAll]

theorem visible_of_none (ht : s.txns i = none) : s.visible i = s.rows := by
  rw [visible, ht]
  rfl

/-- What a transaction sees depends on the committed rows and on what it has written. -/
theorem visible_congr {s' : Store α κ key} (hrows : s'.rows = s.rows)
    (htxns : (s'.txns j).elim [] Txn.writes = (s.txns i).elim [] Txn.writes) :
    s'.visible j = s.visible i := by
  rw [visible, visible, hrows, htxns]

theorem visible_lock (s : Store α κ key) (i j : ℕ) (k : κ) :
    (s.lock i k).visible j = s.visible j := by
  refine visible_congr (rows_grab ..) ?_
  rw [lock, txns_grab]
  split
  · rename_i hj
    subst hj
    cases s.txns j <;> rfl
  · rfl

theorem visible_write_ne (hne : j ≠ i) (r : α) : (s.write i r).visible j = s.visible j := by
  refine visible_congr (rows_grab ..) ?_
  rw [write, txns_grab, if_neg hne]

/-- A transaction sees what it has written last. -/
theorem get_visible_write (ht : s.txns i = some t) (r : α) (k : κ) :
    ((s.write i r).visible i).get k = if key r = k then some r else (s.visible i).get k := by
  have htxn : (s.write i r).txns i = some ⟨key r :: t.locks, r :: t.writes⟩ := by
    rw [write, txns_grab, if_pos rfl, ht]
    rfl
  rw [get_visible htxn, get_visible ht, List.find?_cons]
  by_cases hk : key r = k
  · rw [if_pos hk, decide_eq_true hk]
    rfl
  · rw [if_neg hk, decide_eq_false hk, write, rows_grab]

end Visible

theorem not_mem_of_isFree {s : Store α κ key} (h : s.Disciplined) {i j : ℕ} {k : κ}
    {t : Txn α κ} (hfree : s.isFree i k = true) (hj : s.txns j = some t) (hne : j ≠ i) :
    k ∉ t.locks := by
  intro hk
  have hall := List.all_eq_true.mp hfree j (List.mem_range.mpr (h.numbered j t hj))
  rw [hj, Option.all_some, List.contains_iff_mem.mpr hk, decide_eq_false hne] at hall
  cases hall

/-- A row that is locked by one transaction is not changed by the commit of another. -/
theorem get_commit_of_locked {s : Store α κ key} (h : s.Disciplined) {i j : ℕ} {k : κ}
    {t : Txn α κ} (hj : s.txns j = some t) (hk : k ∈ t.locks) (hne : j ≠ i) :
    (s.commit i).rows.get k = s.rows.get k := by
  have hcommit : (s.commit i).rows = s.visible i := rfl
  rw [hcommit, visible, Rows.get_putAll]
  cases hi : s.txns i with
  | none => rfl
  | some u =>
      have hnone : (u.writes.find? fun r => key r = k) = none := by
        rw [List.find?_eq_none]
        intro r hr hkey
        rw [decide_eq_true_eq] at hkey
        have hlocked := h.locked i u r hi hr
        rw [hkey] at hlocked
        exact hne (h.exclusive j i t u k hj hi hk hlocked)
      rw [Option.elim_some, hnone, Option.none_or]

omit [DecidableEq κ] in
/-- What remains after a transaction has ended. -/
theorem Disciplined.ended {s s' : Store α κ key} (h : s.Disciplined) {i : ℕ}
    (hnext : s'.next = s.next)
    (htxns : ∀ j, s'.txns j = if j = i then none else s.txns j) : s'.Disciplined := by
  have hold : ∀ j t, s'.txns j = some t → s.txns j = some t := by
    intro j t hj
    rw [htxns] at hj
    split at hj
    · cases hj
    · exact hj
  exact ⟨fun j t hj => hnext ▸ h.numbered j t (hold j t hj),
    fun j j' t u k hj hj' => h.exclusive j j' t u k (hold j t hj) (hold j' u hj'),
    fun j t r hj => h.locked j t r (hold j t hj)⟩

omit [DecidableEq κ] in
theorem Disciplined.started {s : Store α κ key} (h : s.Disciplined) : s.start.Disciplined := by
  have hold : ∀ j t, s.start.txns j = some t → (j = s.next ∧ t = {}) ∨ s.txns j = some t := by
    intro j t hj
    rw [txns_start] at hj
    split at hj
    · rename_i hnew
      exact .inl ⟨hnew, (Option.some.inj hj).symm⟩
    · exact .inr hj
  refine ⟨fun j t hj => ?_, fun j j' t u k hj hj' hk hk' => ?_, fun j t r hj hr => ?_⟩
  · rcases hold j t hj with ⟨rfl, -⟩ | hj
    · exact Nat.lt_succ_self _
    · exact Nat.lt_succ_of_lt (h.numbered j t hj)
  · rcases hold j t hj with ⟨-, rfl⟩ | hj
    · cases hk
    · rcases hold j' u hj' with ⟨-, rfl⟩ | hj'
      · cases hk'
      · exact h.exclusive j j' t u k hj hj' hk hk'
  · rcases hold j t hj with ⟨-, rfl⟩ | hj
    · cases hr
    · exact h.locked j t r hj hr

theorem Disciplined.grabbed {s : Store α κ key} (h : s.Disciplined) {i : ℕ} {k : κ}
    {versions : List α} (hfree : s.isFree i k = true) (hkey : ∀ r ∈ versions, key r = k) :
    (s.grab i k versions).Disciplined := by
  have hold : ∀ j t, (s.grab i k versions).txns j = some t → (j ≠ i ∧ s.txns j = some t) ∨
      ∃ t₀, j = i ∧ s.txns i = some t₀ ∧ t = ⟨k :: t₀.locks, versions ++ t₀.writes⟩ := by
    intro j t hj
    rw [txns_grab] at hj
    split at hj
    · rename_i hji
      obtain ⟨t₀, ht₀, rfl⟩ := Option.map_eq_some_iff.mp hj
      exact .inr ⟨t₀, hji, ht₀, rfl⟩
    · rename_i hji
      exact .inl ⟨hji, hj⟩
  refine ⟨fun j t hj => ?_, fun j j' t u k' hj hj' hk hk' => ?_, fun j t r hj hr => ?_⟩
  · rw [next_grab]
    rcases hold j t hj with ⟨-, hj₀⟩ | ⟨t₀, rfl, hj₀, -⟩
    · exact h.numbered j t hj₀
    · exact h.numbered j t₀ hj₀
  · rcases hold j t hj with ⟨hne, hj₀⟩ | ⟨t₀, rfl, hj₀, rfl⟩
    · rcases hold j' u hj' with ⟨-, hj₁⟩ | ⟨u₀, rfl, hj₁, rfl⟩
      · exact h.exclusive j j' t u k' hj₀ hj₁ hk hk'
      · rcases List.mem_cons.mp hk' with rfl | hk'
        · exact absurd hk (not_mem_of_isFree h hfree hj₀ hne)
        · exact h.exclusive j j' t u₀ k' hj₀ hj₁ hk hk'
    · rcases hold j' u hj' with ⟨hne, hj₁⟩ | ⟨u₀, rfl, -, -⟩
      · rcases List.mem_cons.mp hk with rfl | hk
        · exact absurd hk' (not_mem_of_isFree h hfree hj₁ hne)
        · exact h.exclusive j j' t₀ u k' hj₀ hj₁ hk hk'
      · rfl
  · rcases hold j t hj with ⟨-, hj₀⟩ | ⟨t₀, rfl, hj₀, rfl⟩
    · exact h.locked j t r hj₀ hr
    · rcases List.mem_append.mp hr with hr | hr
      · rw [hkey r hr]
        exact List.mem_cons_self
      · exact List.mem_cons_of_mem _ (h.locked j t₀ r hj₀ hr)

theorem Disciplined.step {s s' : Store α κ key} (h : s.Disciplined) (hs : s.Step s') :
    s'.Disciplined := by
  cases hs with
  | start => exact h.started
  | grab hfree hkey => exact h.grabbed hfree hkey
  | @abort i => exact h.ended rfl (txns_abort s i)
  | @commit i => exact h.ended rfl (txns_commit s i)

end Store

end Gjallar.ReadCommitted

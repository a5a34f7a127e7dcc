import Gjallar.SessionRuns

/-!
# Rows and indexes over every run of sessions

A row is added once and stays, and the unique indexes hold. The invariants are gathered in one
record, and the rule of a transaction says when a program keeps to a contract.
-/
namespace Gjallar.Sessions

open Gjallar.ReadCommitted Gjallar.Processes Gjallar.Processes.Fallible

variable {α κ X : Type} {key : α → κ} {A : X → Type} {ε O : Type} [DecidableEq κ]
  {D : Schema α κ} {S : Surroundings X A ε O}

omit [DecidableEq κ] in
/-- The next transaction has not begun. -/
theorem txns_next {s : Store α κ key} (hd : s.Disciplined) : s.txns s.next = none := by
  by_contra hsome
  obtain ⟨u, hu⟩ := Option.ne_none_iff_exists'.mp hsome
  exact Nat.lt_irrefl _ (hd.numbered _ _ hu)

/-! ### Rows that are added -/

def Committed (tr : Traces α κ X A ε) (t : ℕ) : Prop := ∃ i e, (i, e) ∈ tr ∧ committed e = some t

/-- A transaction that was not rolled back. -/
def Alive (s : Store α κ key) (tr : Traces α κ X A ε) (t : ℕ) : Prop :=
  (s.txns t).isSome = true ∨ Committed tr t

/-- A row is added once, and then it stays or gives way to later versions. -/
structure Added (R : α → α → Prop) (initial : Rows α κ key) (s : Store α κ key)
    (tr : Traces α κ X A ε) : Prop where
  closed : ∀ t, Committed tr t → s.txns t = none
  pending : ∀ t u v, s.txns t = some u → v ∈ u.writes → (s.rows.get (key v)).isSome = true ∨
    ∃ i e w, (i, e) ∈ tr ∧ inserted e = some (t, w) ∧ key w = key v
  origin : ∀ k, (s.rows.get k).isSome = true → (initial.get k).isSome = true ∨
    ∃ i e t w, (i, e) ∈ tr ∧ inserted e = some (t, w) ∧ key w = k ∧ Committed tr t
  running : ∀ i e t w u, (i, e) ∈ tr → inserted e = some (t, w) → s.txns t = some u →
    key w ∈ u.locks ∧ s.rows.get (key w) = none ∧ ∃ v, (s.visible t).get (key w) = some v ∧ R w v
  kept : ∀ i e t w, (i, e) ∈ tr → inserted e = some (t, w) → Committed tr t →
    ∃ v, s.rows.get (key w) = some v ∧ R w v
  once : ∀ i j e f t t' w w', (i, e) ∈ tr → (j, f) ∈ tr → inserted e = some (t, w) →
    inserted f = some (t', w') → key w = key w' → Alive s tr t → Alive s tr t' → t = t'

section Adding

variable {R : α → α → Prop} {initial : Rows α κ key} {s s' : Store α κ key}
  {tr : Traces α κ X A ε} {i : ℕ} {c : Command α κ X} {r : Except ε (Reply A c)}

theorem isSome_visible {t : ℕ} {k : κ} (h : (s.rows.get k).isSome = true) :
    ((s.visible t).get k).isSome = true := by
  cases ht : s.txns t with
  | none => rwa [Store.visible_of_none ht]
  | some u => rw [Store.get_visible ht, Option.isSome_or, h, Bool.or_true]

theorem Effect.isSome_rows (he : Effect D s c r s') {k : κ} (h : (s.rows.get k).isSome = true) :
    (s'.rows.get k).isSome = true := by
  rcases he.rows with heq | ⟨t, -, -, rfl⟩
  · rwa [heq]
  · exact isSome_visible h

omit [DecidableEq κ] in
theorem Committed.cons {t : ℕ} (h : Committed tr t) (x : ℕ × Happening α κ X A ε) :
    Committed (x :: tr) t := by
  obtain ⟨j, f, hf, ht⟩ := h
  exact ⟨j, f, List.mem_cons_of_mem _ hf, ht⟩

omit [DecidableEq κ] in
theorem committed_cons {t : ℕ} {e : Happening α κ X A ε} (h : Committed ((i, e) :: tr) t) :
    committed e = some t ∨ Committed tr t := by
  obtain ⟨j, f, hf, ht⟩ := h
  rcases List.mem_cons.mp hf with heq | hf
  · cases heq
    exact .inl ht
  · exact .inr ⟨j, f, hf, ht⟩

/-- A transaction that commits was running, and what it sees becomes the committed rows. -/
theorem Effect.of_committed (he : Effect D s c r s') {t : ℕ} (h : committed ⟨c, r⟩ = some t) :
    (s.txns t).isSome = true ∧ s' = s.commit t := by
  have heq := committed_eq_some.mp h
  cases heq
  cases he with
  | idle _ hnone => cases hnone
  | commit hruns => exact ⟨hruns, rfl⟩
  | lock _ hlocked => cases hlocked
  | write hwrote => cases hwrote

/-- A row that was added is written under its lock, and it was not there before. -/
theorem Effect.of_inserted (he : Effect D s c r s') {t : ℕ} {w : α}
    (h : inserted ⟨c, r⟩ = some (t, w)) : (s.txns t).isSome = true ∧ s.isFree t (key w) = true ∧
      D.admits (s.visible t) w = true ∧ s' = s.write t w := by
  have hwrote := wrote_of_inserted h
  cases he with
  | idle _ _ hlocked =>
      rw [locked_of_told (told_of_wrote hwrote)] at hlocked
      cases hlocked
  | start | commit | rollback => cases hwrote
  | lock _ _ hnone =>
      rw [hnone] at hwrote
      cases hwrote
  | write hw hruns hfree _ _ hnew =>
      rw [hw] at hwrote
      cases hwrote
      exact ⟨hruns, hfree, hnew h, rfl⟩

/-- A version that was written is written under its lock; an updated row was there before. -/
theorem Effect.of_wrote (he : Effect D s c r s') {t : ℕ} {w : α}
    (h : wrote ⟨c, r⟩ = some (t, w)) : (s.txns t).isSome = true ∧ s.isFree t (key w) = true ∧
      D.isUnopposed s t w = true ∧ D.isFitting (s.visible t) w = true ∧
      (inserted ⟨c, r⟩ = none → ((s.visible t).get (key w)).isSome = true) ∧ s' = s.write t w := by
  cases he with
  | idle _ _ hlocked =>
      rw [locked_of_told (told_of_wrote h)] at hlocked
      cases hlocked
  | start | commit | rollback => cases h
  | lock _ _ hnone =>
      rw [hnone] at h
      cases h
  | write hw hruns hfree hunopposed hfits _ hold =>
      rw [hw] at h
      cases h
      exact ⟨hruns, hfree, hunopposed, hfits, hold, rfl⟩

theorem get_of_admits {rows : Rows α κ key} {w : α} (h : D.admits rows w = true) :
    rows.get (key w) = none := by
  rw [Schema.admits, Bool.and_eq_true, Bool.and_eq_true, Option.isNone_iff_eq_none] at h
  exact h.1.1

theorem Added.nil (hs : ∀ t, s.txns t = none) : Added R s.rows s ([] : Traces α κ X A ε) := by
  have hnone : ∀ {t}, ¬ Committed ([] : Traces α κ X A ε) t := by
    rintro t ⟨_, _, h, -⟩
    exact absurd h List.not_mem_nil
  refine ⟨fun t h => absurd h hnone, fun t u v hu => ?_, fun k h => .inl h,
    fun _ _ _ _ _ h => absurd h List.not_mem_nil, fun _ _ _ _ h => absurd h List.not_mem_nil,
    fun _ _ _ _ _ _ _ _ h => absurd h List.not_mem_nil⟩
  rw [hs t] at hu
  cases hu

theorem Added.abort (ha : Added R initial s tr) (t₀ : ℕ) : Added R initial (s.abort t₀) tr := by
  have hold : ∀ {t u}, (s.abort t₀).txns t = some u → s.txns t = some u ∧
      (s.abort t₀).visible t = s.visible t := by
    intro t u hu
    rw [Store.txns_abort] at hu
    split at hu
    · cases hu
    · rename_i hne
      exact ⟨hu, Store.visible_congr rfl (by rw [Store.txns_abort, if_neg hne])⟩
  have halive : ∀ {t}, Alive (s.abort t₀) tr t → Alive s tr t := by
    rintro t (h | h)
    · obtain ⟨u, hu⟩ := Option.isSome_iff_exists.mp h
      refine .inl ?_
      rw [(hold hu).1]
      rfl
    · exact .inr h
  refine ⟨fun t h => ?_, fun t u v hu => ha.pending t u v (hold hu).1, ha.origin,
    fun j e t w u hj he hu => ?_, ha.kept, fun j k e f t t' w w' hj hk he hf hkey h h' =>
      ha.once j k e f t t' w w' hj hk he hf hkey (halive h) (halive h')⟩
  · rw [Store.txns_abort, ha.closed t h, ite_self]
  · rw [(hold hu).2]
    exact ha.running j e t w u hj he (hold hu).1

omit [DecidableEq κ] in
theorem txn_of_inserted {e : Happening α κ X A ε} {t : ℕ} {w : α}
    (h : inserted e = some (t, w)) : e.command.txn = some t :=
  txn_of_told (told_of_wrote (wrote_of_inserted h))

omit [DecidableEq κ] in
theorem Owned.lt_of_inserted (ho : Owned s tr) {j t : ℕ} {f : Happening α κ X A ε} {w : α}
    (hf : (j, f) ∈ tr) (hins : inserted f = some (t, w)) : t < s.next :=
  ho.lt_next (ho.owned _ _ _ hf (txn_of_inserted hins))

section Step

variable {j t t' : ℕ} {f : Happening α κ X A ε} {w w' : α} {u' : Txn α κ}

/-- What was added earlier is kept in sight. -/
theorem Added.seen (ha : Added R initial s tr) (hd : s.Disciplined) (ho : Owned s tr)
    (htrans : ∀ v v' v'', R v v' → R v' v'' → R v v'')
    (hupdate : ∀ t w old, wrote ⟨c, r⟩ = some (t, w) → inserted ⟨c, r⟩ = none →
      (s.visible t).get (key w) = some old → R old w)
    (he : Effect D s c r s') (hf : (j, f) ∈ tr) (hins : inserted f = some (t, w))
    (hu' : s'.txns t = some u') : key w ∈ u'.locks ∧ s'.rows.get (key w) = none ∧
      ∃ v, (s'.visible t).get (key w) = some v ∧ R w v := by
  rcases he.txns hu' with ⟨hbegan, -, -⟩ | ⟨u, hu, hlocks, -, -⟩
  · exact absurd (he.began_lt hbegan).1 (Nat.ne_of_lt (ho.lt_of_inserted hf hins))
  · obtain ⟨hlock, hnone, old, hold, hle⟩ := ha.running j f t w u hf hins hu
    refine ⟨hlocks hlock, ?_, ?_⟩
    · rcases he.rows with heq | ⟨t', -, -, rfl⟩
      · rw [heq, hnone]
      · have hne : t ≠ t' := by
          rintro rfl
          rw [Store.txns_commit, if_pos rfl] at hu'
          cases hu'
        rw [Store.get_commit_of_locked hd hu hlock hne, hnone]
    by_cases hw : ∃ v, wrote ⟨c, r⟩ = some (t, v) ∧ key v = key w
    · obtain ⟨v, hv, hkey⟩ := hw
      refine ⟨v, hkey ▸ (he.of_told (told_of_wrote hv) hu').2, ?_⟩
      cases hins' : inserted ⟨c, r⟩ with
      | none => exact htrans w old v hle (hupdate t v old hv hins' (hkey ▸ hold))
      | some x =>
          have hx := wrote_of_inserted hins'
          rw [hv] at hx
          cases hx
          have hnone := get_of_admits (he.of_inserted hins').2.2.1
          rw [hkey, hold] at hnone
          cases hnone
    · rw [he.get_visible_of_locked hd hu hlock (fun v hv hkey => hw ⟨v, hv, hkey⟩)
        (by rw [hu']; rfl)]
      exact ⟨old, hold, hle⟩

/-- A transaction that goes on after a step went on before it. -/
theorem Effect.alive_of_inserted (he : Effect D s c r s') (ho : Owned s tr) (hf : (j, f) ∈ tr)
    (hins : inserted f = some (t, w)) (h : Alive s' ((i, ⟨c, r⟩) :: tr) t) : Alive s tr t := by
  rcases h with hruns | hcommitted
  · obtain ⟨u', hu'⟩ := Option.isSome_iff_exists.mp hruns
    rcases he.txns hu' with ⟨hbegan, -, -⟩ | ⟨u, hu, -⟩
    · exact absurd (he.began_lt hbegan).1 (Nat.ne_of_lt (ho.lt_of_inserted hf hins))
    · refine .inl ?_
      rw [hu]
      rfl
  · rcases committed_cons hcommitted with hnow | hold
    · exact .inl (he.of_committed hnow).1
    · exact .inr hold

/-- A row is not added while another transaction has added it. -/
theorem Added.fresh (ha : Added R initial s tr) (hd : s.Disciplined) (he : Effect D s c r s')
    (hins : inserted ⟨c, r⟩ = some (t, w)) (hf : (j, f) ∈ tr)
    (hins' : inserted f = some (t', w')) (hkey : key w = key w') (halive : Alive s tr t') :
    t = t' := by
  obtain ⟨hruns, hfree, hadmits, -⟩ := he.of_inserted hins
  by_contra hne
  rcases halive with hruns' | hcommitted
  · obtain ⟨u, hu⟩ := Option.isSome_iff_exists.mp hruns'
    have hlock := (ha.running j f t' w' u hf hins' hu).1
    rw [← hkey] at hlock
    exact Store.not_mem_of_isFree hd hfree hu (Ne.symm hne) hlock
  · obtain ⟨v, hv, -⟩ := ha.kept j f t' w' hf hins' hcommitted
    have hsome := isSome_visible (t := t) (Option.isSome_of_eq_some hv)
    rw [← hkey, get_of_admits hadmits] at hsome
    cases hsome

theorem Added.pending_step (ha : Added R initial s tr) (he : Effect D s c r s') {v : α}
    (hu' : s'.txns t = some u') (hv : v ∈ u'.writes) : (s'.rows.get (key v)).isSome = true ∨
      ∃ j f w, (j, f) ∈ (i, ⟨c, r⟩) :: tr ∧ inserted f = some (t, w) ∧ key w = key v := by
  have hgrow : ∀ {v' : α}, key v' = key v → ((s.rows.get (key v')).isSome = true ∨
      ∃ j f w, (j, f) ∈ tr ∧ inserted f = some (t, w) ∧ key w = key v') →
      ((s'.rows.get (key v)).isSome = true ∨ ∃ j f w, (j, f) ∈ (i, ⟨c, r⟩) :: tr ∧
        inserted f = some (t, w) ∧ key w = key v) := by
    rintro v' hkey (h | ⟨j, f, w, hf, hins, hw⟩)
    · exact .inl (he.isSome_rows (hkey ▸ h))
    · exact .inr ⟨j, f, w, List.mem_cons_of_mem _ hf, hins, hw.trans hkey⟩
  rcases he.txns hu' with ⟨-, -, rfl⟩ | ⟨u, hu, -, -, hwrites⟩
  · cases hv
  · rcases hwrites v hv with hv | hwrote
    · exact hgrow rfl (ha.pending t u v hu hv)
    · obtain ⟨-, -, -, -, hold, -⟩ := he.of_wrote hwrote
      cases hins : inserted ⟨c, r⟩ with
      | some x =>
          have hx := wrote_of_inserted hins
          rw [hwrote] at hx
          cases hx
          exact .inr ⟨i, ⟨c, r⟩, v, List.mem_cons_self, hins, rfl⟩
      | none =>
          have hsome := hold hins
          rw [Store.get_visible hu, Option.isSome_or, Bool.or_eq_true] at hsome
          rcases hsome with hfind | hrow
          · obtain ⟨w, hw⟩ := Option.isSome_iff_exists.mp hfind
            have hkey : key w = key v := by simpa using List.find?_some hw
            exact hgrow hkey (ha.pending t u w hu (List.mem_of_find?_eq_some hw))
          · exact .inl (he.isSome_rows hrow)

theorem Added.origin_step (ha : Added R initial s tr) (he : Effect D s c r s') {k : κ}
    (hk : (s'.rows.get k).isSome = true) : (initial.get k).isSome = true ∨ ∃ j f t w,
      (j, f) ∈ (i, ⟨c, r⟩) :: tr ∧ inserted f = some (t, w) ∧ key w = k ∧
        Committed ((i, ⟨c, r⟩) :: tr) t := by
  have hgrow : (s.rows.get k).isSome = true → (initial.get k).isSome = true ∨ ∃ j f t w,
      (j, f) ∈ (i, ⟨c, r⟩) :: tr ∧ inserted f = some (t, w) ∧ key w = k ∧
        Committed ((i, ⟨c, r⟩) :: tr) t := by
    intro h
    rcases ha.origin k h with h | ⟨j, f, t, w, hf, hins, hkey, hcommitted⟩
    · exact .inl h
    · exact .inr ⟨j, f, t, w, List.mem_cons_of_mem _ hf, hins, hkey, hcommitted.cons _⟩
  rcases he.rows with heq | ⟨t, hnow, hruns, rfl⟩
  · rw [heq] at hk
    exact hgrow hk
  · obtain ⟨u, hu⟩ := Option.isSome_iff_exists.mp hruns
    have hrows : (s.commit t).rows = s.visible t := rfl
    rw [hrows, Store.get_visible hu, Option.isSome_or, Bool.or_eq_true] at hk
    rcases hk with hfind | hrow
    · obtain ⟨v, hv⟩ := Option.isSome_iff_exists.mp hfind
      have hkey : key v = k := by simpa using List.find?_some hv
      rcases ha.pending t u v hu (List.mem_of_find?_eq_some hv) with
        hrow | ⟨j, f, w, hf, hins, hw⟩
      · exact hgrow (hkey ▸ hrow)
      · exact .inr ⟨j, f, t, w, List.mem_cons_of_mem _ hf, hins, hw.trans hkey,
          i, ⟨c, r⟩, List.mem_cons_self, hnow⟩
    · exact hgrow hrow

end Step

theorem Added.call (ha : Added R initial s tr) (hv : Evolving R s) (hd : s.Disciplined)
    (ho : Owned s tr) (hR : ∀ v, R v v) (htrans : ∀ v v' v'', R v v' → R v' v'' → R v v'')
    (hupdate : ∀ t w old, wrote ⟨c, r⟩ = some (t, w) → inserted ⟨c, r⟩ = none →
      (s.visible t).get (key w) = some old → R old w)
    (he : Effect D s c r s') : Added R initial s' ((i, ⟨c, r⟩) :: tr) := by
  have hinserted : ∀ {t w}, inserted ⟨c, r⟩ = some (t, w) → committed ⟨c, r⟩ = none := by
    intro t w hins
    have heq := inserted_eq_some.mp hins
    cases heq
    rfl
  refine ⟨fun t h => ?_, fun t u' v hu' hv => ?_, fun k hk => ?_, fun j f t w u' hf hins hu' => ?_,
    fun j f t w hf hins hcommitted => ?_, fun j k e f t t' w w' hj hk hje hkf hkey h h' => ?_⟩
  · rcases committed_cons h with hnow | ⟨j, f, hf, ht⟩
    · rw [(he.of_committed hnow).2, Store.txns_commit, if_pos rfl]
    · exact he.ended (ha.closed t ⟨j, f, hf, ht⟩)
        (ho.lt_next (ho.owned _ _ _ hf (txn_of_committed ht)))
  · exact ha.pending_step he hu' hv
  · exact ha.origin_step he hk
  · rcases List.mem_cons.mp hf with heq | hf
    · cases heq
      obtain ⟨hlock, hsees⟩ := he.of_told (told_of_wrote (wrote_of_inserted hins)) hu'
      obtain ⟨-, -, hadmits, rfl⟩ := he.of_inserted hins
      have hnone := get_of_admits hadmits
      have hrow : s.rows.get (key w) = none := by
        by_contra hne
        have hsome := isSome_visible (t := t) (Option.isSome_iff_ne_none.mpr hne)
        rw [hnone] at hsome
        cases hsome
      have hrows : (s.write t w).rows = s.rows := Store.rows_grab ..
      exact ⟨hlock, by rw [hrows, hrow], w, hsees, hR w⟩
    · exact ha.seen hd ho htrans hupdate he hf hins hu'
  · rcases List.mem_cons.mp hf with heq | hf
    · cases heq
      rcases committed_cons hcommitted with hnow | hold
      · rw [hinserted hins] at hnow
        cases hnow
      · have hruns := (he.of_inserted hins).1
        rw [ha.closed t hold] at hruns
        cases hruns
    · rcases committed_cons hcommitted with hnow | hold
      · obtain ⟨hruns, rfl⟩ := he.of_committed hnow
        obtain ⟨u, hu⟩ := Option.isSome_iff_exists.mp hruns
        exact (ha.running j f t w u hf hins hu).2.2
      · obtain ⟨v, hrow, hle⟩ := ha.kept j f t w hf hins hold
        obtain ⟨v', hrow', hle'⟩ := he.evolves hR hv hrow
        exact ⟨v', hrow', htrans w v v' hle hle'⟩
  · rcases List.mem_cons.mp hj with heq | hj
    · cases heq
      rcases List.mem_cons.mp hk with heq' | hk
      · cases heq'
        rw [hje] at hkf
        cases hkf
        rfl
      · exact ha.fresh hd he hje hk hkf hkey (he.alive_of_inserted ho hk hkf h')
    · rcases List.mem_cons.mp hk with heq' | hk
      · cases heq'
        exact (ha.fresh hd he hkf hj hje hkey.symm (he.alive_of_inserted ho hj hje h)).symm
      · exact ha.once j k e f t t' w w' hj hk hje hkf hkey (he.alive_of_inserted ho hj hje h)
          (he.alive_of_inserted ho hk hkf h')

end Adding

/-! ### The unique indexes -/

/-- No two rows that anyone sees violate an index, nor do rows that two transactions wrote. -/
structure Indexed (D : Schema α κ) (s : Store α κ key) : Prop where
  seen : ∀ t k k' v v', (s.visible t).get k = some v → (s.visible t).get k' = some v' → k ≠ k' →
    D.clash v v' = false
  cross : ∀ t t' u u' v v', t ≠ t' → s.txns t = some u → s.txns t' = some u' → v ∈ u.writes →
    v' ∈ u'.writes → D.clash v v' = false

section Indexed

variable {s s' : Store α κ key} {c : Command α κ X} {r : Except ε (Reply A c)}

theorem Indexed.nil (hs : ∀ t, s.txns t = none)
    (hrows : ∀ k k' v v', s.rows.get k = some v → s.rows.get k' = some v' → k ≠ k' →
      D.clash v v' = false) : Indexed D s := by
  refine ⟨fun t k k' v v' hv hv' => ?_, fun t t' u u' v v' _ hu => ?_⟩
  · rw [Store.visible_of_none (hs t)] at hv hv'
    exact hrows k k' v v' hv hv'
  · rw [hs t] at hu
    cases hu

theorem Indexed.rows (hi : Indexed D s) (hd : s.Disciplined) {k k' : κ} {v v' : α}
    (hv : s.rows.get k = some v) (hv' : s.rows.get k' = some v') (hne : k ≠ k') :
    D.clash v v' = false := by
  refine hi.seen s.next k k' v v' ?_ ?_ hne
  · rwa [Store.visible_of_none (txns_next hd)]
  · rwa [Store.visible_of_none (txns_next hd)]

theorem Indexed.abort (hi : Indexed D s) (hd : s.Disciplined) (i : ℕ) : Indexed D (s.abort i) := by
  refine ⟨fun t k k' v v' hv hv' hne => ?_, fun t t' u u' v v' hne hu hu' => ?_⟩
  · have htxns := Store.txns_abort s i t
    by_cases ht : t = i
    · rw [if_pos ht] at htxns
      rw [Store.visible_of_none htxns] at hv hv'
      exact hi.rows hd hv hv' hne
    · rw [if_neg ht] at htxns
      have hsame : (s.abort i).visible t = s.visible t := Store.visible_congr rfl (by rw [htxns])
      rw [hsame] at hv hv'
      exact hi.seen t k k' v v' hv hv' hne
  · have hold : ∀ {t u}, (s.abort i).txns t = some u → s.txns t = some u := by
      intro t u hu
      rw [Store.txns_abort] at hu
      split at hu
      · cases hu
      · exact hu
    exact hi.cross t t' u u' v v' hne (hold hu) (hold hu')

omit [DecidableEq κ] in
theorem not_clash_of_isUnopposed (hd : s.Disciplined) {t t' : ℕ} {u : Txn α κ} {v w : α}
    (hunopposed : D.isUnopposed s t w = true) (hu : s.txns t' = some u) (hne : t' ≠ t)
    (hv : v ∈ u.writes) : D.clash v w = false := by
  have h := List.all_eq_true.mp hunopposed t' (List.mem_range.mpr (hd.numbered t' u hu))
  rw [hu, Option.all_some, decide_eq_false hne, Bool.false_or, List.all_eq_true] at h
  simpa using h v hv

theorem not_clash_of_isFitting {rows : Rows α κ key} {v w : α} (hfits : D.isFitting rows w = true)
    {k : κ} (hv : rows.get k = some v) (hne : k ≠ key w) : D.clash v w = false := by
  obtain ⟨hmem, rfl⟩ := Rows.get_eq_some.mp hv
  have h := List.all_eq_true.mp hfits v hmem
  rw [decide_eq_false hne, Bool.false_or] at h
  simpa using h

theorem Indexed.start (hi : Indexed D s) (hd : s.Disciplined) : Indexed D s.start := by
  refine ⟨fun t k k' v v' => ?_, fun t t' u u' v v' hne hu hu' hv hv' => ?_⟩
  · have hsame : s.start.visible t = s.visible t := by
      by_cases ht : t = s.next
      · have hnone : s.txns t = none := ht ▸ txns_next hd
        refine Store.visible_congr rfl ?_
        rw [Store.txns_start, if_pos ht, hnone]
        rfl
      · exact Store.visible_congr rfl (by rw [Store.txns_start, if_neg ht])
    rw [hsame]
    exact hi.seen t k k' v v'
  · have hold : ∀ {t u} {v : α}, s.start.txns t = some u → v ∈ u.writes → s.txns t = some u := by
      intro t u v hu hv
      rw [Store.txns_start] at hu
      split at hu
      · cases hu
        cases hv
      · exact hu
    exact hi.cross t t' u u' v v' hne (hold hu hv) (hold hu' hv') hv hv'

theorem Indexed.lock (hi : Indexed D s) (i : ℕ) (k : κ) : Indexed D (s.lock i k) := by
  refine ⟨fun t k k' v v' => ?_, fun t t' u u' v v' hne hu hu' hv hv' => ?_⟩
  · rw [Store.visible_lock]
    exact hi.seen t k k' v v'
  · have hold : ∀ {t u} {v : α}, (s.lock i k).txns t = some u → v ∈ u.writes →
        ∃ u₀, s.txns t = some u₀ ∧ v ∈ u₀.writes := by
      intro t u v hu hv
      rw [Store.lock, Store.txns_grab] at hu
      split at hu
      · rename_i heq
        obtain ⟨u₀, hu₀, rfl⟩ := Option.map_eq_some_iff.mp hu
        exact ⟨u₀, heq ▸ hu₀, hv⟩
      · exact ⟨u, hu, hv⟩
    obtain ⟨u₀, hu₀, hv₀⟩ := hold hu hv
    obtain ⟨u₁, hu₁, hv₁⟩ := hold hu' hv'
    exact hi.cross t t' u₀ u₁ v v' hne hu₀ hu₁ hv₀ hv₁

theorem Indexed.write (hi : Indexed D s) (hd : s.Disciplined)
    (hsymm : ∀ v w, D.clash v w = D.clash w v) {i : ℕ} {w : α} (hruns : (s.txns i).isSome = true)
    (hunopposed : D.isUnopposed s i w = true) (hfits : D.isFitting (s.visible i) w = true) :
    Indexed D (s.write i w) := by
  obtain ⟨u₀, hu₀⟩ := Option.isSome_iff_exists.mp hruns
  refine ⟨fun t k k' v v' hv hv' hne => ?_, fun t t' u u' v v' hne hu hu' hv hv' => ?_⟩
  · by_cases ht : t = i
    · subst ht
      rw [Store.get_visible_write hu₀] at hv hv'
      split at hv
      · rename_i hk
        cases hv
        rw [if_neg (hk ▸ hne)] at hv'
        rw [hsymm]
        exact not_clash_of_isFitting hfits hv' (hk ▸ Ne.symm hne)
      · split at hv'
        · rename_i hk
          cases hv'
          exact not_clash_of_isFitting hfits hv (hk ▸ hne)
        · exact hi.seen t k k' v v' hv hv' hne
    · rw [Store.visible_write_ne ht] at hv hv'
      exact hi.seen t k k' v v' hv hv' hne
  · have hold : ∀ {t u} {v : α}, (s.write i w).txns t = some u → v ∈ u.writes →
        ∃ u₀, s.txns t = some u₀ ∧ (v ∈ u₀.writes ∨ (t = i ∧ v = w)) := by
      intro t u v hu hv
      rw [Store.write, Store.txns_grab] at hu
      split at hu
      · rename_i heq
        obtain ⟨u₀, hu₀, rfl⟩ := Option.map_eq_some_iff.mp hu
        refine ⟨u₀, heq ▸ hu₀, ?_⟩
        rcases List.mem_cons.mp hv with rfl | hv
        · exact .inr ⟨heq, rfl⟩
        · exact .inl hv
      · exact ⟨u, hu, .inl hv⟩
    obtain ⟨u₁, hu₁, hv₁⟩ := hold hu hv
    obtain ⟨u₂, hu₂, hv₂⟩ := hold hu' hv'
    rcases hv₁ with hv₁ | ⟨rfl, rfl⟩
    · rcases hv₂ with hv₂ | ⟨rfl, rfl⟩
      · exact hi.cross t t' u₁ u₂ v v' hne hu₁ hu₂ hv₁ hv₂
      · exact not_clash_of_isUnopposed hd hunopposed hu₁ hne hv₁
    · rcases hv₂ with hv₂ | ⟨rfl, rfl⟩
      · rw [hsymm]
        exact not_clash_of_isUnopposed hd hunopposed hu₂ (Ne.symm hne) hv₂
      · exact absurd rfl hne

theorem Indexed.commit (hi : Indexed D s) {i : ℕ} (hruns : (s.txns i).isSome = true) :
    Indexed D (s.commit i) := by
  obtain ⟨uᵢ, huᵢ⟩ := Option.isSome_iff_exists.mp hruns
  have hrows : (s.commit i).rows = s.visible i := rfl
  refine ⟨fun t k k' v v' hv hv' hne => ?_, fun t t' u u' v v' hne hu hu' => ?_⟩
  · have htxns := Store.txns_commit s i t
    cases hu : (s.commit i).txns t with
    | none =>
        rw [Store.visible_of_none hu, hrows] at hv hv'
        exact hi.seen i k k' v v' hv hv' hne
    | some u =>
        have hti : t ≠ i := by
          intro heq
          rw [if_pos heq, hu] at htxns
          cases htxns
        rw [if_neg hti, hu] at htxns
        have hut : s.txns t = some u := htxns.symm
        -- a row is one that the transaction has written, or the other has, or it is unchanged
        have hcases : ∀ {k v}, ((s.commit i).visible t).get k = some v →
            (s.visible t).get k = some v ∧ (v ∈ u.writes ∨ (s.visible i).get k = some v) ∨
            (v ∈ uᵢ.writes ∧ (s.visible i).get k = some v) := by
          intro k v hv
          rw [Store.get_visible hu, hrows, Option.or_eq_some_iff] at hv
          rcases hv with hfind | ⟨hnone, hv⟩
          · refine .inl ⟨?_, .inl (List.mem_of_find?_eq_some hfind)⟩
            rw [Store.get_visible hut, hfind, Option.some_or]
          · have hvi := hv
            rw [Store.get_visible huᵢ, Option.or_eq_some_iff] at hv
            rcases hv with hfind | ⟨-, hrow⟩
            · exact .inr ⟨List.mem_of_find?_eq_some hfind, hvi⟩
            · refine .inl ⟨?_, .inr hvi⟩
              rw [Store.get_visible hut, hnone, Option.none_or, hrow]
        rcases hcases hv with ⟨hvt, hv₁⟩ | ⟨hv₁, hvi⟩
        · rcases hcases hv' with ⟨hvt', -⟩ | ⟨hv₂, hvi'⟩
          · exact hi.seen t k k' v v' hvt hvt' hne
          · rcases hv₁ with hv₁ | hvi
            · exact hi.cross t i u uᵢ v v' hti hut huᵢ hv₁ hv₂
            · exact hi.seen i k k' v v' hvi hvi' hne
        · rcases hcases hv' with ⟨-, hv₂ | hvi'⟩ | ⟨-, hvi'⟩
          · exact hi.cross i t uᵢ u v v' (Ne.symm hti) huᵢ hut hv₁ hv₂
          · exact hi.seen i k k' v v' hvi hvi' hne
          · exact hi.seen i k k' v v' hvi hvi' hne
  · have hold : ∀ {t u}, (s.commit i).txns t = some u → s.txns t = some u := by
      intro t u hu
      rw [Store.txns_commit] at hu
      split at hu
      · cases hu
      · exact hu
    exact hi.cross t t' u u' v v' hne (hold hu) (hold hu')

theorem Indexed.call (hi : Indexed D s) (hd : s.Disciplined)
    (hsymm : ∀ v w, D.clash v w = D.clash w v) (he : Effect D s c r s') : Indexed D s' := by
  cases he with
  | idle => exact hi
  | rollback => exact hi.abort hd _
  | start => exact hi.start hd
  | lock => exact hi.lock _ _
  | write hwrote hruns hfree hunopposed hfits => exact hi.write hd hsymm hruns hunopposed hfits
  | commit hruns => exact hi.commit hruns

end Indexed

/-! ### References and readings -/

/-- Every row that anyone sees refers to rows that are seen as well. -/
def Referring (D : Schema α κ) (s : Store α κ key) : Prop :=
  ∀ t k v k', (s.visible t).get k = some v → k' ∈ D.refers v → ((s.visible t).get k').isSome = true

/-- A row that was read by a transaction that has written nothing is committed, or gave way to later
versions. -/
def Readings (R : α → α → Prop) (s : Store α κ key) (tr : Traces α κ X A ε) : Prop :=
  ∀ i e t v, (i, e) ∈ tr → (t, v) ∈ saw e → (∃ v', s.rows.get (key v) = some v' ∧ R v v') ∨
    ∃ j f w, (j, f) ∈ tr ∧ wrote f = some (t, w)

section Reading

variable {R : α → α → Prop} {s s' : Store α κ key} {tr : Traces α κ X A ε} {i : ℕ}
  {c : Command α κ X} {r : Except ε (Reply A c)}

theorem Referring.nil (hs : ∀ t, s.txns t = none) (hrows : ∀ k v k', s.rows.get k = some v →
    k' ∈ D.refers v → (s.rows.get k').isSome = true) : Referring D s := by
  intro t k v k'
  rw [Store.visible_of_none (hs t)]
  exact hrows k v k'

theorem Referring.rows (hr : Referring D s) (hd : s.Disciplined) {k k' : κ} {v : α}
    (hv : s.rows.get k = some v) (hk' : k' ∈ D.refers v) : (s.rows.get k').isSome = true := by
  have h := hr s.next k v k'
  rw [Store.visible_of_none (txns_next hd)] at h
  exact h hv hk'

theorem Referring.abort (hr : Referring D s) (hd : s.Disciplined) (i : ℕ) :
    Referring D (s.abort i) := by
  intro t k v k'
  have htxns := Store.txns_abort s i t
  by_cases ht : t = i
  · rw [if_pos ht] at htxns
    rw [Store.visible_of_none htxns]
    exact hr.rows hd
  · rw [if_neg ht] at htxns
    have hsame : (s.abort i).visible t = s.visible t := Store.visible_congr rfl (by rw [htxns])
    rw [hsame]
    exact hr t k v k'

/-- Updates do not refer to more rows than before. -/
theorem Referring.call (hr : Referring D s) (hd : s.Disciplined)
    (hupdate : ∀ t w old, wrote ⟨c, r⟩ = some (t, w) → inserted ⟨c, r⟩ = none →
      (s.visible t).get (key w) = some old → D.refers w ⊆ D.refers old)
    (he : Effect D s c r s') : Referring D s' := by
  cases he with
  | idle => exact hr
  | rollback => exact hr.abort hd _
  | start =>
      intro t k v k'
      have hsame : s.start.visible t = s.visible t := by
        by_cases ht : t = s.next
        · have hnone : s.txns t = none := ht ▸ txns_next hd
          refine Store.visible_congr rfl ?_
          rw [Store.txns_start, if_pos ht, hnone]
          rfl
        · exact Store.visible_congr rfl (by rw [Store.txns_start, if_neg ht])
      rw [hsame]
      exact hr t k v k'
  | lock =>
      intro t k v k'
      rw [Store.visible_lock]
      exact hr t k v k'
  | @write c r i w hwrote hruns _ _ _ hnew hold =>
      obtain ⟨u, hu⟩ := Option.isSome_iff_exists.mp hruns
      intro t k v k' hv hk'
      by_cases ht : t = i
      · subst ht
        rw [Store.get_visible_write hu] at hv ⊢
        split
        · rfl
        · split at hv
          · cases hv
            cases hins : inserted ⟨c, r⟩ with
            | some x =>
                have hx := wrote_of_inserted hins
                rw [hwrote] at hx
                cases hx
                have hadmits := hnew hins
                rw [Schema.admits, Bool.and_eq_true] at hadmits
                exact List.all_eq_true.mp hadmits.2 k' hk'
            | none =>
                obtain ⟨old, hold⟩ := Option.isSome_iff_exists.mp (hold hins)
                exact hr t _ old k' hold (hupdate t _ old hwrote hins hold hk')
          · exact hr t k v k' hv hk'
      · rw [Store.visible_write_ne ht] at hv ⊢
        exact hr t k v k' hv hk'
  | @commit i hruns =>
      obtain ⟨uᵢ, huᵢ⟩ := Option.isSome_iff_exists.mp hruns
      intro t k v k' hv hk'
      have hrows : (s.commit i).rows = s.visible i := rfl
      have htxns := Store.txns_commit s i t
      cases hu : (s.commit i).txns t with
      | none =>
          rw [Store.visible_of_none hu, hrows] at hv ⊢
          exact hr i k v k' hv hk'
      | some u =>
          have hti : t ≠ i := by
            intro heq
            rw [if_pos heq, hu] at htxns
            cases htxns
          rw [if_neg hti, hu] at htxns
          have hut : s.txns t = some u := htxns.symm
          rw [Store.get_visible hu, hrows] at hv ⊢
          rw [Option.isSome_or, Bool.or_eq_true]
          rw [Option.or_eq_some_iff] at hv
          rcases hv with hfind | ⟨-, hv⟩
          · have hseen : (s.visible t).get k = some v := by
              rw [Store.get_visible hut, hfind, Option.some_or]
            have hsome := hr t k v k' hseen hk'
            rw [Store.get_visible hut, Option.isSome_or, Bool.or_eq_true] at hsome
            rcases hsome with hsome | hsome
            · exact .inl hsome
            · exact .inr (isSome_visible hsome)
          · exact .inr (hr i k v k' hv hk')

theorem Readings.call {O : Type} {S : Surroundings X A ε O} {w w' : World α κ key O}
    (hread : Readings R w.store tr) (hv : Evolving R w.store) (ho : Owned w.store tr)
    (hR : ∀ v, R v v) (htrans : ∀ v v' v'', R v v' → R v' v'' → R v v'')
    (h : D.Exec S w c r w') : Readings R w'.store ((i, ⟨c, r⟩) :: tr) := by
  intro j f t v hf hsaw
  rcases List.mem_cons.mp hf with heq | hf
  · cases heq
    obtain ⟨-, hsees⟩ := h.of_saw hsaw
    have hrows : w'.store.rows = w.store.rows := by
      rcases h.effect.rows with hsame | ⟨t', hnow, -⟩
      · exact hsame
      · have heq := committed_eq_some.mp hnow
        cases heq
        exact absurd hsaw List.not_mem_nil
    cases hu : w.store.txns t with
    | none =>
        rw [Store.visible_of_none hu] at hsees
        exact .inl ⟨v, by rw [hrows, hsees], hR v⟩
    | some u =>
        rw [Store.get_visible hu, Option.or_eq_some_iff] at hsees
        rcases hsees with hfind | ⟨-, hrow⟩
        · obtain ⟨j, f, hf, hwrote⟩ := ho.written t u v hu (List.mem_of_find?_eq_some hfind)
          exact .inr ⟨j, f, v, List.mem_cons_of_mem _ hf, hwrote⟩
        · exact .inl ⟨v, by rw [hrows, hrow], hR v⟩
  · rcases hread j f t v hf hsaw with ⟨v', hrow, hle⟩ | ⟨j', f', w₁, hf', hwrote⟩
    · obtain ⟨v'', hrow', hle'⟩ := h.effect.evolves hR hv hrow
      exact .inl ⟨v'', hrow', htrans v v' v'' hle hle'⟩
    · exact .inr ⟨j', f', w₁, List.mem_cons_of_mem _ hf', hwrote⟩

end Reading

/-! ### Together -/

/-- The order in which versions of a row follow each other: every update respects it, and a later
version refers to no more rows. -/
structure Order (D : Schema α κ) (R : α → α → Prop) : Prop where
  refl : ∀ v, R v v
  trans : ∀ v v' v'', R v v' → R v' v'' → R v v''
  refers : ∀ v v', R v v' → D.refers v' ⊆ D.refers v
  symm : ∀ v w, D.clash v w = D.clash w v

/-- The constraints on the rows. -/
structure Constrained (D : Schema α κ) (rows : Rows α κ key) : Prop where
  unique : ∀ k k' v v', rows.get k = some v → rows.get k' = some v' → k ≠ k' → D.clash v v' = false
  refers : ∀ k v k', rows.get k = some v → k' ∈ D.refers v → (rows.get k').isSome = true

/-- The invariants that hold of any processes that keep to their own transactions and whose updates
respect the order. -/
structure Sound (D : Schema α κ) (R : α → α → Prop) (initial : Rows α κ key) (s : Store α κ key)
    (tr : Traces α κ X A ε) : Prop where
  disciplined : s.Disciplined
  owned : Owned s tr
  knows : Knows s tr
  evolving : Evolving R s
  added : Added R initial s tr
  indexed : Indexed D s
  referring : Referring D s
  readings : Readings R s tr

section Sound

variable {R : α → α → Prop} {initial : Rows α κ key} {s : Store α κ key} {tr : Traces α κ X A ε}
  {w w' : World α κ key O}

theorem Sound.nil (hs : ∀ t, s.txns t = none) (hrows : Constrained D s.rows) :
    Sound D R s.rows s ([] : Traces α κ X A ε) := by
  have hnone : ∀ {t u}, s.txns t = some u → False := by
    intro t u hu
    rw [hs t] at hu
    cases hu
  exact ⟨⟨fun _ _ hu => (hnone hu).elim, fun _ _ _ _ _ hu => (hnone hu).elim,
    fun _ _ _ hu => (hnone hu).elim⟩, .nil hs, .nil s, .nil hs, .nil hs, .nil hs hrows.unique,
    .nil hs hrows.refers, fun _ _ _ _ h => absurd h List.not_mem_nil⟩

/-- An update is one of a row that the process knows, and respects the order. -/
def Respects (key : α → κ) (R : α → α → Prop) (h : Past α κ X A ε) (c : Command α κ X) : Prop :=
  ∀ t w, c = .update t w → ∃ old, known key t (key w) h = some old ∧ R old w

theorem Sound.call (h : Sound D R initial w.store tr) (hR : Order D R) {i : ℕ}
    {c : Command α κ X} {r : Except ε (Reply A c)}
    (hb : ∀ t ∈ c.txn, Began (historyOf i tr) t) (hc : Respects key R (historyOf i tr) c)
    (hexec : D.Exec S w c r w') : Sound D R initial w'.store ((i, ⟨c, r⟩) :: tr) := by
  have he := hexec.effect
  have hupdate : ∀ t v old, wrote ⟨c, r⟩ = some (t, v) → inserted ⟨c, r⟩ = none →
      (w.store.visible t).get (key v) = some old → R old v := by
    intro t v old hwrote hins hold
    obtain ⟨u, hu⟩ := Option.isSome_iff_exists.mp (he.of_wrote hwrote).1
    rcases wrote_eq_some.mp hwrote with heq | heq
    · cases heq
      cases hins
    · cases heq
      obtain ⟨old', hknown, hle⟩ := hc t v rfl
      have hsees := (h.knows i t _ _ u hknown hu).2
      rw [hold] at hsees
      cases hsees
      exact hle
  exact ⟨he.disciplined h.disciplined, h.owned.call hb he,
    h.knows.call h.disciplined h.owned hb he,
    h.evolving.call h.disciplined hR.refl hR.trans he hupdate,
    h.added.call h.evolving h.disciplined h.owned hR.refl hR.trans hupdate he,
    h.indexed.call h.disciplined hR.symm he,
    h.referring.call h.disciplined
      (fun t v old hw hi ho => hR.refers _ _ (hupdate t v old hw hi ho)) he,
    h.readings.call h.evolving h.owned hR.refl hR.trans hexec⟩

theorem Sound.abort (h : Sound D R initial s tr) (t : ℕ) : Sound D R initial (s.abort t) tr :=
  ⟨h.disciplined.step .abort, h.owned.abort t, h.knows.abort t, h.evolving.abort t, h.added.abort t,
    h.indexed.abort h.disciplined t, h.referring.abort h.disciplined t, h.readings⟩

theorem Sound.environment (h : Sound D R initial w.store tr) (he : Schema.Environment S w w') :
    Sound D R initial w'.store tr := by
  cases he with
  | drift => exact h
  | lost t => exact h.abort t

end Sound

/-! ### Contracts -/

omit [DecidableEq κ] in
theorem began_txn {h : Past α κ X A ε} {t : ℕ} {c : Command α κ X} (hb : Began h t)
    (hc : c.txn = some t) : ∀ t' ∈ c.txn, Began h t' := by
  intro t' ht'
  rw [hc] at ht'
  cases ht'
  exact hb

section Contracts

variable {β : Type} {possible : (c : Command α κ X) → Except ε (Reply A c) → Prop}
  {allowed : Past α κ X A ε → Command α κ X → Prop} {h : Past α κ X A ε}
  {body : ℕ → Prog α κ X A ε β}

omit [DecidableEq κ] in
/-- The rule of a transaction: its body ends where the commit is allowed, or it is rolled back. -/
theorem obeys_sessionScope {Q : Past α κ X A ε → β → Prop} (hstart : allowed h .start)
    (hrollback : ∀ h' t, h <:+ h' → Began h' t → allowed h' (.rollback t))
    (hbody : ∀ t, Obeys possible allowed (⟨.start, .ok t⟩ :: h) (body t) fun h' b =>
      allowed h' (.commit t) ∧ Q (⟨.commit t, .ok ()⟩ :: h') b) :
    Obeys possible allowed h (sessionScope body) Q := by
  refine (Obeys.call hstart).bind ?_
  rintro _ t hs ⟨rfl, -⟩
  have hcommit : Obeys possible allowed (⟨.start, .ok t⟩ :: h)
      (do let b ← body t; Call.commit t; return b) Q := by
    refine (hbody t).bind fun h' b _ hq => (Obeys.call hq.1).bind ?_
    rintro _ ⟨⟩ - ⟨rfl, -⟩
    exact Obeys.pure hq.2
  refine (Obeys.attempt hcommit).bind ?_
  rintro h' r hsuffix hr
  cases r with
  | ok b => exact Obeys.pure (hr b rfl)
  | error e =>
      have hb : Began h' t := ⟨_, hsuffix.subset List.mem_cons_self, rfl⟩
      exact (Obeys.call (hrollback h' t (hs.trans hsuffix) hb)).bind fun _ _ _ _ => Obeys.throw e

end Contracts

end Gjallar.Sessions

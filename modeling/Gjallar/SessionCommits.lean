import Gjallar.Marks
import Gjallar.SessionTables

/-!
# What a commit does

A transaction that reads its rows under their locks commits as if it had run alone at that moment:
what it has learned of the committed rows still holds, and its own writes are all that changes. A
row that is missing has no lock of its own, so its absence is protected by the lock of another row,
its guard.
-/
namespace Gjallar.Sessions

open Gjallar.ReadCommitted Gjallar.Processes Gjallar.Processes.Fallible

variable {α κ X : Type} {key : α → κ} {A : X → Type} {ε O : Type}

/-- What a transaction has written since it began, the newest first. -/
def writesOf (t : ℕ) : Past α κ X A ε → List α
  | [] => []
  | e :: h =>
      if began e = some t then []
      else ((wrote e).filter fun x => x.1 = t).elim [] (fun x => [x.2]) ++ writesOf t h

/-- The key of a row that a statement has not found. -/
def missed : Happening α κ X A ε → Option (ℕ × κ)
  | ⟨.get t k, .ok none⟩ => some (t, k)
  | ⟨.lock t k, .ok none⟩ => some (t, k)
  | _ => none

theorem txn_of_missed {e : Happening α κ X A ε} {t : ℕ} {k : κ} (h : missed e = some (t, k)) :
    e.command.txn = some t := by
  unfold missed at h
  split at h <;> cases h <;> rfl

theorem txn_of_saw {e : Happening α κ X A ε} {t : ℕ} {v : α} (h : (t, v) ∈ saw e) :
    e.command.txn = some t := by
  unfold saw at h
  split at h
  · obtain ⟨_, -, heq⟩ := List.mem_map.mp h
    cases heq
    rfl
  · obtain ⟨_, -, heq⟩ := List.mem_map.mp h
    cases heq
    rfl
  · obtain ⟨_, -, heq⟩ := List.mem_map.mp h
    cases heq
    rfl
  · obtain ⟨_, -, heq⟩ := List.mem_map.mp h
    cases heq
    rfl
  · exact absurd h List.not_mem_nil

section Writes

variable {t : ℕ} {e : Happening α κ X A ε} {h : Past α κ X A ε} {v : α}

theorem writesOf_of_began (he : began e = some t) : writesOf t (e :: h) = [] := if_pos he

theorem writesOf_of_wrote (he : wrote e = some (t, v)) :
    writesOf t (e :: h) = v :: writesOf t h := by
  have hbegan : began e ≠ some t := by
    intro hb
    have hnone := txn_of_began hb
    rw [txn_of_told (told_of_wrote he)] at hnone
    cases hnone
  rw [writesOf, if_neg hbegan, he, Option.filter_some, if_pos (decide_eq_true rfl)]
  rfl

theorem writesOf_of_none (hbegan : began e ≠ some t) (he : wrote e = none) :
    writesOf t (e :: h) = writesOf t h := by
  rw [writesOf, if_neg hbegan, he]
  rfl

@[simp] theorem writesOf_start : writesOf t (⟨.start, .ok t⟩ :: h) = [] := writesOf_of_began rfl

@[simp] theorem writesOf_insert : writesOf t (⟨.insert t v, .ok true⟩ :: h) = v :: writesOf t h :=
  writesOf_of_wrote rfl

@[simp] theorem writesOf_update : writesOf t (⟨.update t v, .ok true⟩ :: h) = v :: writesOf t h :=
  writesOf_of_wrote rfl

variable {i : ℕ} {k : κ} {p : α → Bool}

@[simp] theorem writesOf_outside {x : X} {r : Except ε (A x)} :
    writesOf t ((⟨.outside x, r⟩ : Happening α κ X A ε) :: h) = writesOf t h := rfl

@[simp] theorem writesOf_get {r : Except ε (Option α)} :
    writesOf t ((⟨.get i k, r⟩ : Happening α κ X A ε) :: h) = writesOf t h := rfl

@[simp] theorem writesOf_lock {r : Except ε (Option α)} :
    writesOf t ((⟨.lock i k, r⟩ : Happening α κ X A ε) :: h) = writesOf t h := rfl

@[simp] theorem writesOf_tryLock {r : Except ε (Option α)} :
    writesOf t ((⟨.tryLock i k, r⟩ : Happening α κ X A ε) :: h) = writesOf t h := rfl

@[simp] theorem writesOf_select {r : Except ε (List α)} :
    writesOf t ((⟨.select i p, r⟩ : Happening α κ X A ε) :: h) = writesOf t h := rfl

end Writes

variable [DecidableEq κ] {D : Schema α κ} {S : Surroundings X A ε O}

section Known

variable {t : ℕ} {k : κ} {v : α} {h : Past α κ X A ε} {e : Happening α κ X A ε}

theorem known_cons : known key t k (e :: h) =
    ((told e).bind fun x => if x.1 = t ∧ key x.2 = k then some x.2 else none).or
      (known key t k h) := by
  rw [known, List.findSome?_cons]
  split
  · rename_i hsome
    rw [hsome, Option.some_or]
  · rename_i hnone
    rw [hnone, Option.none_or]
    rfl

theorem isSome_known_of_told (he : e ∈ h) (htold : told e = some (t, v)) :
    (known key t (key v) h).isSome = true := by
  rw [known, List.findSome?_isSome_iff]
  refine ⟨e, he, ?_⟩
  rw [htold, Option.bind_some, if_pos ⟨rfl, rfl⟩]
  rfl

theorem isSome_known_of_suffix {past : Past α κ X A ε} (hs : past <:+ h)
    (hk : (known key t k past).isSome = true) : (known key t k h).isSome = true := by
  rw [known, List.findSome?_isSome_iff] at hk ⊢
  obtain ⟨e, he, hsome⟩ := hk
  exact ⟨e, hs.subset he, hsome⟩

end Known

/-- A row that was not found is one that the transaction does not see. -/
theorem Schema.Exec.of_missed {w w' : World α κ key O} {c : Command α κ X}
    {r : Except ε (Reply A c)} (h : D.Exec S w c r w') {t : ℕ} {k : κ}
    (hm : missed ⟨c, r⟩ = some (t, k)) : w' = w ∧ (w.store.visible t).get k = none := by
  cases h with
  | outside h => cases hm
  | refused h =>
      cases c with
      | outside x => cases h
      | start | commit | rollback | get | select | lock | tryLock | hold | insert | update =>
        cases hm
  | @done c a w' h =>
      cases c with
      | outside x => exact h.elim
      | start | commit | rollback | select | tryLock | hold | insert | update => cases hm
      | get t' k' =>
          obtain ⟨-, ha, rfl⟩ := h
          cases a with
          | some row => cases hm
          | none =>
              cases hm
              exact ⟨rfl, ha.symm⟩
      | lock t' k' =>
          obtain ⟨-, ha, hw⟩ := h
          cases a with
          | some row => cases hm
          | none =>
              cases hm
              cases hw
              exact ⟨rfl, ha.symm⟩

/-- What the statements of a transaction say about the committed rows. -/
structure Learned (R : α → α → Prop) (guard : κ → κ) (rows : Rows α κ key) (t : ℕ)
    (h : Past α κ X A ε) : Prop where
  locked : ∀ e past v, e :: past <:+ h → told e = some (t, v) → wrote e = none →
    (∀ w ∈ writesOf t past, key w ≠ key v) → rows.get (key v) = some v
  seen : ∀ e past v, e :: past <:+ h → (t, v) ∈ saw e → (∀ w ∈ writesOf t past, key w ≠ key v) →
    ∃ v', rows.get (key v) = some v' ∧ R v v'
  missing : ∀ e past k, e :: past <:+ h → missed e = some (t, k) →
    (known key t (guard k) past).isSome = true → rows.get k = none
  fresh : ∀ e v, e ∈ h → inserted e = some (t, v) → rows.get (key v) = none

/-- What running transactions have written, and what they have learned, still holds; and a row is
added under the lock of its guard. -/
structure Isolated (R : α → α → Prop) (guard : κ → κ) (s : Store α κ key)
    (tr : Traces α κ X A ε) : Prop where
  writes : ∀ i t u, Began (historyOf i tr) t → s.txns t = some u →
    u.writes = writesOf t (historyOf i tr)
  learned : ∀ i t u, Began (historyOf i tr) t → s.txns t = some u →
    Learned R guard s.rows t (historyOf i tr)
  guarded : ∀ i e t v, (i, e) ∈ tr → inserted e = some (t, v) → guard (key v) ≠ key v →
    (known key t (guard (key v)) (historyOf i tr)).isSome = true

/-- An insertion is one whose guard the process has locked. -/
def Guards (key : α → κ) (guard : κ → κ) (h : Past α κ X A ε) (c : Command α κ X) : Prop :=
  ∀ t v, c = .insert t v → guard (key v) ≠ key v → (known key t (guard (key v)) h).isSome = true

section Isolation

variable {R : α → α → Prop} {guard : κ → κ} {initial : Rows α κ key} {s s' : Store α κ key}
  {tr : Traces α κ X A ε} {i j t : ℕ} {c : Command α κ X} {r : Except ε (Reply A c)}
  {u u' : Txn α κ} {k : κ} {h : Past α κ X A ε} {rows : Rows α κ key}

/-- No other transaction changes a row that is locked. -/
theorem Effect.get_rows_of_locked (he : Effect D s c r s') (hd : s.Disciplined)
    (hu : s.txns t = some u) (hk : k ∈ u.locks) (hruns : (s'.txns t).isSome = true) :
    s'.rows.get k = s.rows.get k := by
  rcases he.rows with heq | ⟨t', -, -, rfl⟩
  · rw [heq]
  · have hne : t ≠ t' := by
      rintro rfl
      rw [Store.txns_commit, if_pos rfl] at hruns
      cases hruns
    exact Store.get_commit_of_locked hd hu hk hne

/-- No other transaction adds a row whose guard is locked. -/
theorem Effect.get_rows_of_guarded (he : Effect D s c r s') (hs : Sound D R initial s tr)
    (hi : Isolated R guard s tr) (hu : s.txns t = some u) (hk : guard k ∈ u.locks)
    (hnone : s.rows.get k = none) (hruns : (s'.txns t).isSome = true) : s'.rows.get k = none := by
  rcases he.rows with heq | ⟨t', -, hruns', rfl⟩
  · rw [heq, hnone]
  · have hne : t ≠ t' := by
      rintro rfl
      rw [Store.txns_commit, if_pos rfl] at hruns
      cases hruns
    obtain ⟨u', hu'⟩ := Option.isSome_iff_exists.mp hruns'
    have hrows : (s.commit t').rows = s.visible t' := rfl
    rw [hrows, Store.get_visible hu', hnone, Option.or_none, List.find?_eq_none]
    intro v hv hkey
    rw [decide_eq_true_eq] at hkey
    -- the other transaction has added the row, so it holds the lock of the guard as well
    have hlock : guard k ∈ u'.locks := by
      by_cases hg : guard k = k
      · rw [hg, ← hkey]
        exact hs.disciplined.locked t' u' v hu' hv
      · rcases hs.added.pending t' u' v hu' hv with hrow | ⟨j, e, w, hmem, hins, hw⟩
        · rw [hkey, hnone] at hrow
          cases hrow
        · have hwk : key w = k := hw.trans hkey
          have hsome := hi.guarded j e t' w hmem hins (by rwa [hwk])
          obtain ⟨x, hx⟩ := Option.isSome_iff_exists.mp hsome
          rw [hwk] at hx
          exact (hs.knows j t' _ x u' hx hu').1
    exact hne (hs.disciplined.exclusive t t' u u' _ hu hu' hk hlock)

/-- What a statement adds to the writes of a running transaction. -/
theorem Effect.writes (he : Effect D s c r s') (hd : s.Disciplined) (hu : s.txns t = some u)
    (hu' : s'.txns t = some u') : u'.writes =
      ((wrote ⟨c, r⟩).filter fun x => x.1 = t).elim [] (fun x => [x.2]) ++ u.writes := by
  cases he with
  | idle _ _ hlocked =>
      cases hw : wrote (⟨c, r⟩ : Happening α κ X A ε) with
      | none =>
          rw [hu] at hu'
          cases hu'
          rfl
      | some x =>
          rw [locked_of_told (told_of_wrote hw)] at hlocked
          cases hlocked
  | start =>
      rw [Store.txns_start, if_neg (Nat.ne_of_lt (hd.numbered t u hu)), hu] at hu'
      cases hu'
      rfl
  | commit =>
      rw [Store.txns_commit] at hu'
      split at hu'
      · cases hu'
      · rw [hu] at hu'
        cases hu'
        rfl
  | rollback =>
      rw [Store.txns_abort] at hu'
      split at hu'
      · cases hu'
      · rw [hu] at hu'
        cases hu'
        rfl
  | @lock c r t₀ k₀ _ _ hwrote =>
      rw [hwrote]
      rw [Store.lock, Store.txns_grab] at hu'
      split at hu'
      · rename_i heq
        subst heq
        rw [hu] at hu'
        cases hu'
        rfl
      · rw [hu] at hu'
        cases hu'
        rfl
  | @write c r t₀ v hwrote =>
      rw [hwrote, Option.filter_some]
      rw [Store.write, Store.txns_grab] at hu'
      split at hu'
      · rename_i heq
        subst heq
        rw [hu] at hu'
        cases hu'
        rw [if_pos (decide_eq_true rfl)]
        rfl
      · rename_i hne
        rw [hu] at hu'
        cases hu'
        rw [if_neg (by simpa using Ne.symm hne)]
        rfl

theorem Learned.of_none (hnone : ∀ e ∈ h, e.command.txn ≠ some t) : Learned R guard rows t h :=
  ⟨fun e _ _ hs htold => absurd (txn_of_told htold) (hnone e (hs.subset List.mem_cons_self)),
    fun e _ _ hs hsaw => absurd (txn_of_saw hsaw) (hnone e (hs.subset List.mem_cons_self)),
    fun e _ _ hs hm => absurd (txn_of_missed hm) (hnone e (hs.subset List.mem_cons_self)),
    fun e _ he hins => absurd (txn_of_told (told_of_wrote (wrote_of_inserted hins))) (hnone e he)⟩

theorem Learned.of_suffix {past : Past α κ X A ε} (hl : Learned R guard rows t h)
    (hs : past <:+ h) : Learned R guard rows t past :=
  ⟨fun e past' v hs' => hl.locked e past' v (hs'.trans hs),
    fun e past' v hs' => hl.seen e past' v (hs'.trans hs),
    fun e past' k hs' => hl.missing e past' k (hs'.trans hs),
    fun e v he => hl.fresh e v (hs.subset he)⟩

theorem Learned.cons {e : Happening α κ X A ε} (hl : Learned R guard rows t h)
    (hlocked : ∀ v, told e = some (t, v) → wrote e = none →
      (∀ w ∈ writesOf t h, key w ≠ key v) → rows.get (key v) = some v)
    (hseen : ∀ v, (t, v) ∈ saw e → (∀ w ∈ writesOf t h, key w ≠ key v) →
      ∃ v', rows.get (key v) = some v' ∧ R v v')
    (hmissing : ∀ k, missed e = some (t, k) → (known key t (guard k) h).isSome = true →
      rows.get k = none)
    (hfresh : ∀ v, inserted e = some (t, v) → rows.get (key v) = none) :
    Learned R guard rows t (e :: h) := by
  refine ⟨fun f past v hs htold hwrote hnone => ?_, fun f past v hs hsaw hnone => ?_,
    fun f past k hs hm hk => ?_, fun f v hf hins => ?_⟩
  · rcases List.suffix_cons_iff.mp hs with heq | hs
    · obtain ⟨rfl, rfl⟩ := List.cons.inj heq
      exact hlocked v htold hwrote hnone
    · exact hl.locked f past v hs htold hwrote hnone
  · rcases List.suffix_cons_iff.mp hs with heq | hs
    · obtain ⟨rfl, rfl⟩ := List.cons.inj heq
      exact hseen v hsaw hnone
    · exact hl.seen f past v hs hsaw hnone
  · rcases List.suffix_cons_iff.mp hs with heq | hs
    · obtain ⟨rfl, rfl⟩ := List.cons.inj heq
      exact hmissing k hm hk
    · exact hl.missing f past k hs hm hk
  · rcases List.mem_cons.mp hf with rfl | hf
    · exact hfresh v hins
    · exact hl.fresh f v hf hins

/-- What a running transaction has learned holds after the statements of others. -/
theorem Learned.kept (hl : Learned R guard s.rows t (historyOf j tr)) (hs : Sound D R initial s tr)
    (hi : Isolated R guard s tr) (hR : Order D R) (he : Effect D s c r s') (hu : s.txns t = some u)
    (hruns : (s'.txns t).isSome = true) : Learned R guard s'.rows t (historyOf j tr) := by
  have hlock : ∀ {k}, (known key t k (historyOf j tr)).isSome = true → k ∈ u.locks := by
    intro k hk
    obtain ⟨x, hx⟩ := Option.isSome_iff_exists.mp hk
    exact (hs.knows j t k x u hx hu).1
  refine ⟨fun e past v hsuffix htold hwrote hnone => ?_, fun e past v hsuffix hsaw hnone => ?_,
    fun e past k hsuffix hm hk => ?_, fun e v hmem hins => ?_⟩
  · have hk : (known key t (key v) (historyOf j tr)).isSome = true :=
      isSome_known_of_told (hsuffix.subset List.mem_cons_self) htold
    rw [he.get_rows_of_locked hs.disciplined hu (hlock hk) hruns]
    exact hl.locked e past v hsuffix htold hwrote hnone
  · obtain ⟨v', hrow, hle⟩ := hl.seen e past v hsuffix hsaw hnone
    obtain ⟨v'', hrow', hle'⟩ := he.evolves hR.refl hs.evolving hrow
    exact ⟨v'', hrow', hR.trans v v' v'' hle hle'⟩
  · have hpast : past <:+ historyOf j tr := (List.suffix_cons e past).trans hsuffix
    exact he.get_rows_of_guarded hs hi hu (hlock (isSome_known_of_suffix hpast hk))
      (hl.missing e past k hsuffix hm hk) hruns
  · have htold := told_of_wrote (wrote_of_inserted hins)
    rw [he.get_rows_of_locked hs.disciplined hu (hlock (isSome_known_of_told hmem htold)) hruns]
    exact hl.fresh e v hmem hins

theorem Isolated.nil (hs : ∀ t, s.txns t = none) :
    Isolated R guard s ([] : Traces α κ X A ε) := by
  refine ⟨fun _ t _ _ hu => ?_, fun _ t _ _ hu => ?_, fun _ _ _ _ h => absurd h List.not_mem_nil⟩
  · rw [hs t] at hu
    cases hu
  · rw [hs t] at hu
    cases hu

theorem Isolated.abort (hi : Isolated R guard s tr) (t₀ : ℕ) :
    Isolated R guard (s.abort t₀) tr := by
  have hold : ∀ {t u}, (s.abort t₀).txns t = some u → s.txns t = some u := by
    intro t u hu
    rw [Store.txns_abort] at hu
    split at hu
    · cases hu
    · exact hu
  exact ⟨fun j t u hb hu => hi.writes j t u hb (hold hu),
    fun j t u hb hu => hi.learned j t u hb (hold hu), hi.guarded⟩

theorem Isolated.call {w w' : World α κ key O} (hi : Isolated R guard w.store tr)
    (hs : Sound D R initial w.store tr)
    (hs' : Sound D R initial w'.store ((i, ⟨c, r⟩) :: tr)) (hR : Order D R)
    (hb : ∀ t ∈ c.txn, Began (historyOf i tr) t) (hg : Guards key guard (historyOf i tr) c)
    (hexec : D.Exec S w c r w') : Isolated R guard w'.store ((i, ⟨c, r⟩) :: tr) := by
  have he := hexec.effect
  have hd := hs.disciplined
  -- the transaction has just begun, or it was running before
  have hold : ∀ {j t u'}, Began (historyOf j ((i, (⟨c, r⟩ : Happening α κ X A ε)) :: tr)) t →
      w'.store.txns t = some u' →
      (j = i ∧ began (⟨c, r⟩ : Happening α κ X A ε) = some t ∧ t = w.store.next ∧ u' = {}) ∨
      ∃ u, Began (historyOf j tr) t ∧ w.store.txns t = some u ∧
        began (⟨c, r⟩ : Happening α κ X A ε) ≠ some t := by
    rintro j t u' ⟨f, hf, hft⟩ hu'
    rcases he.txns hu' with ⟨hbegan, hnext, hempty⟩ | ⟨u, hu, -⟩
    · have hji := hs'.owned.single j i f ⟨c, r⟩ t (mem_historyOf.mp hf) List.mem_cons_self
        hft hbegan
      exact .inl ⟨hji, hbegan, hnext, hempty⟩
    · have hnew : began (⟨c, r⟩ : Happening α κ X A ε) ≠ some t := fun hbt =>
        Nat.ne_of_lt (hd.numbered t u hu) (he.began_lt hbt).1
      rcases List.mem_cons.mp (mem_historyOf.mp hf) with heq | hmem
      · cases heq
        exact absurd hft hnew
      · exact .inr ⟨u, ⟨f, mem_historyOf.mpr hmem, hft⟩, hu, hnew⟩
  have hmine : ∀ {j t}, i ≠ j → Began (historyOf j tr) t → c.txn ≠ some t := by
    rintro j t hij ⟨f, hf, hft⟩ htxn
    obtain ⟨g, hg, hgt⟩ := hb t htxn
    exact hij (hs.owned.single i j g f t (mem_historyOf.mp hg) (mem_historyOf.mp hf) hgt hft)
  have hwrites : ∀ {j t u u'}, Began (historyOf j tr) t → w.store.txns t = some u →
      w'.store.txns t = some u' → began (⟨c, r⟩ : Happening α κ X A ε) ≠ some t →
      u'.writes = writesOf t (historyOf j ((i, (⟨c, r⟩ : Happening α κ X A ε)) :: tr)) := by
    intro j t u u' hbt hu hu' hnew
    rw [he.writes hd hu hu', hi.writes j t u hbt hu]
    by_cases hij : i = j
    · subst hij
      rw [historyOf_cons_self, writesOf, if_neg hnew]
    · rw [historyOf_cons_ne hij]
      cases hw : wrote (⟨c, r⟩ : Happening α κ X A ε) with
      | none => rfl
      | some x =>
          have hne : x.1 ≠ t := fun heq =>
            hmine hij hbt ((txn_of_told (told_of_wrote hw)).trans (congrArg some heq))
          rw [Option.filter_some, if_neg (by simpa using hne)]
          rfl
  refine ⟨fun j t u' hbt hu' => ?_, fun j t u' hbt hu' => ?_, fun j e t v hmem hins hne => ?_⟩
  · rcases hold hbt hu' with ⟨rfl, hbegan, -, rfl⟩ | ⟨u, hbt, hu, hnew⟩
    · rw [historyOf_cons_self, writesOf_of_began hbegan]
    · exact hwrites hbt hu hu' hnew
  · rcases hold hbt hu' with ⟨rfl, hbegan, rfl, -⟩ | ⟨u, hbt, hu, hnew⟩
    · rw [historyOf_cons_self]
      refine Learned.of_none fun e hmem htxn => ?_
      rcases List.mem_cons.mp hmem with rfl | hmem
      · rw [txn_of_began hbegan] at htxn
        cases htxn
      · have hlt := hs.owned.lt_next (hs.owned.owned j e _ (mem_historyOf.mp hmem) htxn)
        exact Nat.lt_irrefl _ hlt
    · have hkept := (hi.learned j t u hbt hu).kept hs hi hR he hu (by rw [hu']; rfl)
      by_cases hij : i = j
      · subst hij
        have hrow : ∀ {v}, (w.store.visible t).get (key v) = some v →
            (∀ x ∈ writesOf t (historyOf i tr), key x ≠ key v) →
            w.store.rows.get (key v) = some v := by
          intro v hsees hnone
          rw [Store.get_visible hu, hi.writes i t u hbt hu, Option.or_eq_some_iff] at hsees
          rcases hsees with hfind | ⟨-, hrow⟩
          · exact absurd rfl (hnone v (List.mem_of_find?_eq_some hfind))
          · exact hrow
        rw [historyOf_cons_self]
        refine hkept.cons (fun v htold hwrote hnone => ?_) (fun v hsaw hnone => ?_)
          (fun k hm hk => ?_) fun v hins => ?_
        · have hsees := (hs'.knows i t (key v) v u' (by
            rw [historyOf_cons_self]
            exact known_cons_of_told htold) hu').2
          rw [Store.get_visible hu', hwrites hbt hu hu' hnew, historyOf_cons_self,
            writesOf_of_none hnew hwrote, Option.or_eq_some_iff] at hsees
          rcases hsees with hfind | ⟨-, hrow⟩
          · exact absurd rfl (hnone v (List.mem_of_find?_eq_some hfind))
          · exact hrow
        · exact he.evolves hR.refl hs.evolving (hrow (hexec.of_saw hsaw).2 hnone)
        · obtain ⟨rfl, hsees⟩ := hexec.of_missed hm
          rw [Store.get_visible hu, Option.or_eq_none_iff] at hsees
          exact hsees.2
        · exact (hs'.added.running i ⟨c, r⟩ t v u' List.mem_cons_self hins hu').2.1
      · rwa [historyOf_cons_ne hij]
  · rcases List.mem_cons.mp hmem with heq | hmem
    · cases heq
      rw [historyOf_cons_self]
      exact isSome_known_of_suffix (List.suffix_cons _ _) (hg t v (by
        have hcmd := congrArg Event.command (inserted_eq_some.mp hins)
        exact hcmd) hne)
    · have hsome := hi.guarded j e t v hmem hins hne
      by_cases hij : i = j
      · subst hij
        rw [historyOf_cons_self]
        exact isSome_known_of_suffix (List.suffix_cons _ _) hsome
      · rwa [historyOf_cons_ne hij]

end Isolation

/-! ### Reachable states -/

section Reachable

variable {R : α → α → Prop} {guard : κ → κ} {β : Type}
  {C : Contract (Command α κ X) (fun c => Except ε (Reply A c)) β}
  {entry : Program (Command α κ X) (fun c => Except ε (Reply A c)) β → Prop}
  {w₀ : World α κ key O}
  {st : State (Command α κ X) (fun c => Except ε (Reply A c)) β (World α κ key O)}

theorem isolated_of_reachable
    (hentry : ∀ p, entry p → p.Follows (Schema.possible key S) C.allowed C.ends []) (hR : Order D R)
    (hown : ∀ h c, C.allowed h c → (∀ t ∈ c.txn, Began h t) ∧ Respects key R h c)
    (hguard : ∀ h c, C.allowed h c → Guards key guard h c)
    (hq : Quiescent w₀) (hrows : Constrained D w₀.store.rows)
    (h : (D.system S entry).Reachable (· = w₀) st) :
    Sound D R w₀.store.rows st.world.store st.trace ∧
      Isolated R guard st.world.store st.trace := by
  refine Contract.invariant (D := C) (I := fun w tr => Sound D R w₀.store.rows w.store tr ∧
    Isolated R guard w.store tr) hentry ?_ ?_ ?_ h
  · rintro w rfl
    exact ⟨.nil hq hrows, .nil hq⟩
  · rintro w tr i c r w' ⟨hs, hi⟩ hallowed hexec
    obtain ⟨hb, hc⟩ := hown _ c hallowed
    have hs' := hs.call hR hb hc hexec
    exact ⟨hs', hi.call hs hs' hR hb (hguard _ c hallowed) hexec⟩
  · rintro w tr w' ⟨hs, hi⟩ henv
    refine ⟨hs.environment henv, ?_⟩
    cases henv with
    | drift => exact hi
    | lost t => exact hi.abort t

/-- The step behind an event, in a run that reaches a state. -/
theorem exists_call {C : Type} {Rep : C → Type} {β W : Type} {T : System C Rep β W}
    {init : W → Prop} {s : State C Rep β W} (h : T.Reachable init s)
    {later earlier : Trace C Rep} {i : ℕ} {e : Event C Rep}
    (ht : s.trace = later ++ (i, e) :: earlier) : ∃ s₁ s₂ k,
      T.Reachable init s₁ ∧ T.Step s₁ s₂ ∧ Relation.ReflTransGen T.Step s₂ s ∧ s₁.trace = earlier ∧
      s₂.trace = (i, e) :: earlier ∧ s₁.programs[i]? = some (.call e.command k) ∧
      T.exec s₁.world e.command e.reply s₂.world := by
  induction h generalizing later with
  | start hw => cases later <;> cases ht
  | @step s s' hr hs ih =>
      have hsame : s'.trace = s.trace → _ := fun heq => ih (heq ▸ ht)
      have hlast := hs
      cases hs with
      | start | crash | environment =>
          obtain ⟨s₁, s₂, k, hreach, hstep, hsteps, hrest⟩ := hsame rfl
          exact ⟨s₁, s₂, k, hreach, hstep, hsteps.tail hlast, hrest⟩
      | call j c k r hj hexec =>
          cases later with
          | nil =>
              cases ht
              exact ⟨_, _, k, hr, hlast, .refl, rfl, rfl, hj, hexec⟩
          | cons x later =>
              obtain ⟨s₁, s₂, k, hreach, hstep, hsteps, hrest⟩ := ih (List.cons.inj ht).2
              exact ⟨s₁, s₂, k, hreach, hstep, hsteps.tail hlast, hrest⟩

/-- Rows evolve from step to step. -/
theorem evolves_of_steps
    (hentry : ∀ p, entry p → p.Follows (Schema.possible key S) C.allowed C.ends []) (hR : Order D R)
    (hown : ∀ h c, C.allowed h c → (∀ t ∈ c.txn, Began h t) ∧ Respects key R h c)
    (hguard : ∀ h c, C.allowed h c → Guards key guard h c)
    (hq : Quiescent w₀) (hrows : Constrained D w₀.store.rows)
    {s s' : State (Command α κ X) (fun c => Except ε (Reply A c)) β (World α κ key O)}
    (h : (D.system S entry).Reachable (· = w₀) s)
    (hs : Relation.ReflTransGen (D.system S entry).Step s s') {k : κ} {v : α}
    (hv : s.world.store.rows.get k = some v) :
    ∃ v', s'.world.store.rows.get k = some v' ∧ R v v' := by
  induction hs with
  | refl => exact ⟨v, hv, hR.refl v⟩
  | @tail s₁ s₂ hsteps hstep ih =>
      obtain ⟨v₁, hv₁, hle⟩ := ih
      have hsound := (isolated_of_reachable hentry hR hown hguard hq hrows (h.steps hsteps)).1
      cases hstep with
      | start | crash => exact ⟨v₁, hv₁, hle⟩
      | call i c k' r hi hexec =>
          obtain ⟨v₂, hv₂, hle'⟩ := hexec.effect.evolves hR.refl hsound.evolving hv₁
          exact ⟨v₂, hv₂, hR.trans v v₁ v₂ hle hle'⟩
      | environment henv =>
          cases henv with
          | drift => exact ⟨v₁, hv₁, hle⟩
          | lost => exact ⟨v₁, hv₁, hle⟩

/-- A commit puts what the transaction has written, on rows that are as it has learned. -/
theorem of_commit
    (hentry : ∀ p, entry p → p.Follows (Schema.possible key S) C.allowed C.ends []) (hR : Order D R)
    (hown : ∀ h c, C.allowed h c → (∀ t ∈ c.txn, Began h t) ∧ Respects key R h c)
    (hguard : ∀ h c, C.allowed h c → Guards key guard h c)
    (hq : Quiescent w₀) (hrows : Constrained D w₀.store.rows)
    (h : (D.system S entry).Reachable (· = w₀) st) {i t : ℕ} {w : World α κ key O}
    (hallowed : C.allowed (historyOf i st.trace) (.commit t))
    (hexec : D.Exec S st.world (.commit t) (.ok ()) w) :
    w.store.rows = st.world.store.rows.putAll (writesOf t (historyOf i st.trace)) ∧
      Learned R guard st.world.store.rows t (historyOf i st.trace) ∧
      Constrained D w.store.rows := by
  obtain ⟨hs, hi⟩ := isolated_of_reachable hentry hR hown hguard hq hrows h
  obtain ⟨hb, hc⟩ := hown _ _ hallowed
  have hbegan : Began (historyOf i st.trace) t := hb t rfl
  obtain ⟨hruns, hstore⟩ := hexec.effect.of_committed rfl
  obtain ⟨u, hu⟩ := Option.isSome_iff_exists.mp hruns
  have hs' := hs.call hR hb hc hexec
  refine ⟨?_, hi.learned i t u hbegan hu, ⟨fun k k' v v' hv hv' hne => ?_, fun k v k' hv hk' => ?_⟩⟩
  · rw [hstore, ← hi.writes i t u hbegan hu]
    have hvisible : (st.world.store.commit t).rows = st.world.store.visible t := rfl
    rw [hvisible, Store.visible, hu, Option.elim_some]
  · exact hs'.indexed.rows hs'.disciplined hv hv' hne
  · exact hs'.referring.rows hs'.disciplined hv hk'

end Reachable

end Gjallar.Sessions

import Gjallar.Sessions

/-!
# What holds over every run of sessions

One inversion lemma for the statements, and what follows from it for any programs that keep to their
own transactions: who owns a transaction, what it knows of the rows it has locked, and how the rows
evolve.
-/
namespace Gjallar.Sessions

open Gjallar.ReadCommitted Gjallar.Processes Gjallar.Processes.Fallible

variable {α κ X : Type} {key : α → κ} {A : X → Type} {ε O : Type}

/-! ### What an event says -/

/-- The transaction that began. -/
def began : Happening α κ X A ε → Option ℕ
  | ⟨.start, .ok t⟩ => some t
  | _ => none

/-- The transaction that was committed. -/
def committed : Happening α κ X A ε → Option ℕ
  | ⟨.commit t, .ok ()⟩ => some t
  | _ => none

/-- The row that was added. -/
def inserted : Happening α κ X A ε → Option (ℕ × α)
  | ⟨.insert t r, .ok true⟩ => some (t, r)
  | _ => none

/-- The version of a row that was written. -/
def wrote : Happening α κ X A ε → Option (ℕ × α)
  | ⟨.insert t r, .ok true⟩ => some (t, r)
  | ⟨.update t r, .ok true⟩ => some (t, r)
  | _ => none

/-- The version of a row that was read under its lock or written. -/
def told : Happening α κ X A ε → Option (ℕ × α)
  | ⟨.lock t _, .ok (some r)⟩ => some (t, r)
  | ⟨.tryLock t _, .ok (some r)⟩ => some (t, r)
  | ⟨.insert t r, .ok true⟩ => some (t, r)
  | ⟨.update t r, .ok true⟩ => some (t, r)
  | _ => none

/-- The lock that was granted. -/
def locked (key : α → κ) (e : Happening α κ X A ε) : Option (ℕ × κ) :=
  match e with
  | ⟨.hold t k, .ok ()⟩ => some (t, k)
  | e => (told e).map fun x => (x.1, key x.2)

/-- The rows that a statement has returned. -/
def saw : Happening α κ X A ε → List (ℕ × α)
  | ⟨.get t _, .ok r⟩ => r.toList.map fun v => (t, v)
  | ⟨.lock t _, .ok r⟩ => r.toList.map fun v => (t, v)
  | ⟨.tryLock t _, .ok r⟩ => r.toList.map fun v => (t, v)
  | ⟨.select t _, .ok rs⟩ => rs.map fun v => (t, v)
  | _ => []

theorem began_eq_some {e : Happening α κ X A ε} {t : ℕ} :
    began e = some t ↔ e = ⟨.start, .ok t⟩ := by
  constructor
  · intro h
    unfold began at h
    split at h <;> cases h
    rfl
  · rintro rfl
    rfl

theorem committed_eq_some {e : Happening α κ X A ε} {t : ℕ} :
    committed e = some t ↔ e = ⟨.commit t, .ok ()⟩ := by
  constructor
  · intro h
    unfold committed at h
    split at h <;> cases h
    rfl
  · rintro rfl
    rfl

theorem inserted_eq_some {e : Happening α κ X A ε} {t : ℕ} {r : α} :
    inserted e = some (t, r) ↔ e = ⟨.insert t r, .ok true⟩ := by
  constructor
  · intro h
    unfold inserted at h
    split at h <;> cases h
    rfl
  · rintro rfl
    rfl

theorem wrote_eq_some {e : Happening α κ X A ε} {t : ℕ} {r : α} :
    wrote e = some (t, r) ↔ e = ⟨.insert t r, .ok true⟩ ∨ e = ⟨.update t r, .ok true⟩ := by
  constructor
  · intro h
    unfold wrote at h
    split at h <;> cases h
    · exact .inl rfl
    · exact .inr rfl
  · rintro (rfl | rfl) <;> rfl

theorem told_of_wrote {e : Happening α κ X A ε} {x : ℕ × α} (h : wrote e = some x) :
    told e = some x := by
  rcases wrote_eq_some.mp h with rfl | rfl <;> rfl

theorem wrote_of_inserted {e : Happening α κ X A ε} {x : ℕ × α} (h : inserted e = some x) :
    wrote e = some x := by
  rw [inserted_eq_some.mp h]
  rfl

theorem locked_of_told {e : Happening α κ X A ε} {t : ℕ} {r : α} (h : told e = some (t, r)) :
    locked key e = some (t, key r) := by
  unfold locked
  split
  · cases h
  · rw [h]
    rfl

theorem txn_of_told {e : Happening α κ X A ε} {t : ℕ} {r : α} (h : told e = some (t, r)) :
    e.command.txn = some t := by
  unfold told at h
  split at h <;> cases h <;> rfl

theorem txn_of_began {e : Happening α κ X A ε} {t : ℕ} (h : began e = some t) :
    e.command.txn = none := by
  rw [began_eq_some.mp h]
  rfl

theorem txn_of_committed {e : Happening α κ X A ε} {t : ℕ} (h : committed e = some t) :
    e.command.txn = some t := by
  rw [committed_eq_some.mp h]
  rfl

/-! ### What a statement does -/

variable [DecidableEq κ] {D : Schema α κ} {S : Surroundings X A ε O}

/-- What a statement that was answered has done to the store. -/
inductive Effect (D : Schema α κ) (s : Store α κ key) :
    (c : Command α κ X) → Except ε (Reply A c) → Store α κ key → Prop
  | idle {c : Command α κ X} {r : Except ε (Reply A c)} (hbegan : began ⟨c, r⟩ = none)
      (hcommitted : committed ⟨c, r⟩ = none) (hlocked : locked key ⟨c, r⟩ = none) : Effect D s c r s
  | start : Effect D s .start (.ok s.next) s.start
  | commit {t : ℕ} (hruns : (s.txns t).isSome = true) : Effect D s (.commit t) (.ok ()) (s.commit t)
  | rollback {t : ℕ} : Effect D s (.rollback t) (.ok ()) (s.abort t)
  | lock {c : Command α κ X} {r : Except ε (Reply A c)} {t : ℕ} {k : κ} (htxn : c.txn = some t)
      (hlocked : locked key ⟨c, r⟩ = some (t, k)) (hwrote : wrote ⟨c, r⟩ = none)
      (hruns : (s.txns t).isSome = true) (hfree : s.isFree t k = true)
      (htold : ∀ v, told ⟨c, r⟩ = some (t, v) → (s.visible t).get k = some v) :
      Effect D s c r (s.lock t k)
  | write {c : Command α κ X} {r : Except ε (Reply A c)} {t : ℕ} {v : α}
      (hwrote : wrote ⟨c, r⟩ = some (t, v)) (hruns : (s.txns t).isSome = true)
      (hfree : s.isFree t (key v) = true) (hunopposed : D.isUnopposed s t v = true)
      (hfits : D.isFitting (s.visible t) v = true)
      (hnew : inserted ⟨c, r⟩ = some (t, v) → D.admits (s.visible t) v = true)
      (hold : inserted ⟨c, r⟩ = none → ((s.visible t).get (key v)).isSome = true) :
      Effect D s c r (s.write t v)


/-- Every statement has one of these effects. -/
theorem Schema.Exec.effect {w w' : World α κ key O} {c : Command α κ X}
    {r : Except ε (Reply A c)} (h : D.Exec S w c r w') : Effect D w.store c r w'.store := by
  cases h with
  | outside h => exact .idle rfl rfl rfl
  | refused h =>
      cases c with
      | outside x => cases h
      | start | commit | rollback | get | select | lock | tryLock | hold | insert | update =>
          exact .idle rfl rfl rfl
  | @done c a w' h =>
      cases c with
      | outside x => exact h.elim
      | start =>
          obtain ⟨rfl, rfl⟩ := h
          exact .start
      | commit t =>
          obtain ⟨hruns, rfl⟩ := h
          exact .commit hruns
      | rollback t =>
          cases h
          exact .rollback
      | get t k =>
          obtain ⟨-, -, rfl⟩ := h
          exact .idle rfl rfl rfl
      | select t p =>
          obtain ⟨-, -, rfl⟩ := h
          exact .idle rfl rfl rfl
      | hold t k =>
          obtain ⟨hruns, hfree, rfl⟩ := h
          exact .lock rfl rfl rfl hruns hfree fun _ h => by cases h
      | lock t k =>
          obtain ⟨hruns, ha, hw⟩ := h
          cases a with
          | none =>
              cases hw
              exact .idle rfl rfl rfl
          | some row =>
              obtain ⟨hfree, rfl⟩ := hw
              have hkey : key row = k := Rows.get_key ha.symm
              subst hkey
              refine .lock rfl rfl rfl hruns hfree fun v hv => ?_
              cases hv
              exact ha.symm
      | tryLock t k =>
          obtain ⟨hruns, h⟩ := h
          split at h
          · rename_i hlock
            rw [Bool.and_eq_true] at hlock
            obtain ⟨ha, rfl⟩ := h
            obtain ⟨row, hrow⟩ := Option.isSome_iff_exists.mp hlock.1
            rw [hrow] at ha
            subst ha
            have hkey : key row = k := Rows.get_key hrow
            subst hkey
            refine .lock rfl rfl rfl hruns hlock.2 fun v hv => ?_
            cases hv
            exact hrow
          · obtain ⟨rfl, rfl⟩ := h
            exact .idle rfl rfl rfl
      | insert t v =>
          obtain ⟨hruns, ha, h⟩ := h
          cases a with
          | false =>
              cases h
              exact .idle rfl rfl rfl
          | true =>
              obtain ⟨hfree, hunopposed, rfl⟩ := h
              have hfits : D.isFitting (w.store.visible t) v = true := by
                rw [Schema.admits, eq_comm, Bool.and_eq_true, Bool.and_eq_true] at ha
                exact ha.1.2
              exact .write rfl hruns hfree hunopposed hfits (fun _ => ha.symm) (fun h => by cases h)
      | update t v =>
          obtain ⟨hruns, hsome, ha, h⟩ := h
          cases a with
          | false =>
              cases h
              exact .idle rfl rfl rfl
          | true =>
              obtain ⟨hfree, hunopposed, rfl⟩ := h
              exact .write rfl hruns hfree hunopposed ha.symm (fun h => by cases h) fun _ => hsome

/-- A row that was returned is a row that the transaction sees. -/
theorem Schema.Exec.of_saw {w w' : World α κ key O} {c : Command α κ X} {r : Except ε (Reply A c)}
    (h : D.Exec S w c r w') {t : ℕ} {v : α} (hv : (t, v) ∈ saw ⟨c, r⟩) :
    c.txn = some t ∧ (w.store.visible t).get (key v) = some v := by
  cases h with
  | outside h => exact absurd hv List.not_mem_nil
  | refused h =>
      cases c with
      | outside x => cases h
      | start | commit | rollback | get | select | lock | tryLock | hold | insert | update =>
          exact absurd hv List.not_mem_nil
  | @done c a w' h =>
      -- one row that was read by its key
      have hone : ∀ {t' : ℕ} {k : κ} {a : Option α}, (t, v) ∈ a.toList.map (fun v => (t', v)) →
          (a = none ∨ a = (w.store.visible t').get k) → t' = t ∧
            (w.store.visible t).get (key v) = some v := by
        intro t' k a hmem ha
        obtain ⟨v', hv', heq⟩ := List.mem_map.mp hmem
        cases heq
        rw [Option.mem_toList] at hv'
        rcases ha with rfl | ha
        · cases hv'
        · rw [hv'] at ha
          rw [Rows.get_key ha.symm, ← ha]
          exact ⟨rfl, rfl⟩
      cases c with
      | outside x => exact h.elim
      | start | commit | rollback | hold | insert | update => exact absurd hv List.not_mem_nil
      | get t' k =>
          obtain ⟨rfl, hsees⟩ := hone hv (.inr h.2.1)
          exact ⟨rfl, hsees⟩
      | lock t' k =>
          obtain ⟨rfl, hsees⟩ := hone hv (.inr h.2.1)
          exact ⟨rfl, hsees⟩
      | tryLock t' k =>
          have ha : a = none ∨ a = (w.store.visible t').get k := by
            have h' := h.2
            split at h'
            · exact .inr h'.1
            · exact .inl h'.1
          obtain ⟨rfl, hsees⟩ := hone hv ha
          exact ⟨rfl, hsees⟩
      | select t' p =>
          obtain ⟨v', hv', heq⟩ := List.mem_map.mp hv
          cases heq
          have hmem := (List.mem_filter.mp (h.2.1.mem_iff.mp hv')).1
          exact ⟨rfl, Rows.get_of_mem hmem⟩

namespace Effect

variable {s s' : Store α κ key} {c : Command α κ X} {r : Except ε (Reply A c)} {t : ℕ}

theorem store_step (h : Effect D s c r s') : s' = s ∨ s.Step s' := by
  cases h with
  | idle => exact .inl rfl
  | start => exact .inr .start
  | commit => exact .inr .commit
  | rollback => exact .inr .abort
  | lock _ _ _ _ hfree => exact .inr (.grab hfree fun _ h => absurd h List.not_mem_nil)
  | @write c r t v _ _ hfree =>
      refine .inr (.grab hfree fun u hu => ?_)
      rw [List.mem_singleton.mp hu]

theorem disciplined (h : Effect D s c r s') (hd : s.Disciplined) : s'.Disciplined := by
  rcases h.store_step with rfl | hs
  · exact hd
  · exact hd.step hs

/-- Only a commit changes the committed rows. -/
theorem rows (h : Effect D s c r s') :
    s'.rows = s.rows ∨
      ∃ t, committed ⟨c, r⟩ = some t ∧ (s.txns t).isSome = true ∧ s' = s.commit t := by
  cases h with
  | idle => exact .inl rfl
  | start => exact .inl rfl
  | commit hruns => exact .inr ⟨_, rfl, hruns, rfl⟩
  | rollback => exact .inl rfl
  | lock => exact .inl (Store.rows_grab ..)
  | write => exact .inl (Store.rows_grab ..)

/-- A running transaction has just begun, or it was running, and it has kept what it had. -/
theorem txns {u' : Txn α κ} (h : Effect D s c r s') (hu' : s'.txns t = some u') :
    (began ⟨c, r⟩ = some t ∧ t = s.next ∧ u' = {}) ∨
      ∃ u, s.txns t = some u ∧ u.locks ⊆ u'.locks ∧ (c.txn ≠ some t → u' = u) ∧
        ∀ v ∈ u'.writes, v ∈ u.writes ∨ wrote ⟨c, r⟩ = some (t, v) := by
  have hsame : ∀ {u : Txn α κ}, s.txns t = some u → u' = u → ∃ u, s.txns t = some u ∧
      u.locks ⊆ u'.locks ∧ (c.txn ≠ some t → u' = u) ∧
        ∀ v ∈ u'.writes, v ∈ u.writes ∨ wrote ⟨c, r⟩ = some (t, v) := by
    rintro u hu rfl
    exact ⟨u', hu, List.Subset.refl _, fun _ => rfl, fun _ hv => .inl hv⟩
  cases h with
  | idle => exact .inr (hsame hu' rfl)
  | start =>
      rw [Store.txns_start] at hu'
      split at hu'
      · rename_i heq
        subst heq
        exact .inl ⟨rfl, rfl, (Option.some.inj hu').symm⟩
      · exact .inr (hsame hu' rfl)
  | commit =>
      rw [Store.txns_commit] at hu'
      split at hu'
      · cases hu'
      · exact .inr (hsame hu' rfl)
  | rollback =>
      rw [Store.txns_abort] at hu'
      split at hu'
      · cases hu'
      · exact .inr (hsame hu' rfl)
  | @lock c r t₀ k htxn =>
      rw [Store.lock, Store.txns_grab] at hu'
      split at hu'
      · rename_i heq
        subst heq
        obtain ⟨u, hu, rfl⟩ := Option.map_eq_some_iff.mp hu'
        exact .inr ⟨u, hu, List.subset_cons_self _ _, fun hne => absurd htxn hne,
          fun v hv => .inl hv⟩
      · exact .inr (hsame hu' rfl)
  | @write c r t₀ v hwrote =>
      rw [Store.write, Store.txns_grab] at hu'
      split at hu'
      · rename_i heq
        subst heq
        obtain ⟨u, hu, rfl⟩ := Option.map_eq_some_iff.mp hu'
        refine .inr ⟨u, hu, List.subset_cons_self _ _,
          fun hne => absurd (txn_of_told (told_of_wrote hwrote)) hne, fun x hx => ?_⟩
        rcases List.mem_cons.mp hx with rfl | hx
        · exact .inr hwrote
        · exact .inl hx
      · exact .inr (hsame hu' rfl)

/-- A transaction that has ended does not run again. -/
theorem ended (h : Effect D s c r s') (ht : s.txns t = none) (hlt : t < s.next) :
    s'.txns t = none := by
  by_contra hne
  obtain ⟨u', hu'⟩ := Option.ne_none_iff_exists'.mp hne
  rcases h.txns hu' with ⟨-, rfl, -⟩ | ⟨u, hu, -⟩
  · exact Nat.lt_irrefl _ hlt
  · rw [ht] at hu
    cases hu

theorem next_le (h : Effect D s c r s') : s.next ≤ s'.next := by
  cases h with
  | idle | commit | rollback => exact Nat.le_refl _
  | start => exact Nat.le_succ _
  | lock | write => exact Nat.le_of_eq (Store.next_grab ..).symm

/-- What a running transaction sees of a row changes only when it writes the row, or when another
transaction that has written it commits. -/
theorem get_visible (h : Effect D s c r s') (hd : s.Disciplined) {u : Txn α κ}
    (hu : s.txns t = some u) {k : κ} (hwrote : ∀ v, wrote ⟨c, r⟩ = some (t, v) → key v ≠ k)
    (hothers : ∀ i, committed ⟨c, r⟩ = some i → i ≠ t → (s.commit i).rows.get k = s.rows.get k)
    (hruns : (s'.txns t).isSome = true) : (s'.visible t).get k = (s.visible t).get k := by
  cases h with
  | idle => rfl
  | start =>
      have hsame : s.start.visible t = s.visible t := Store.visible_congr rfl
        (by rw [Store.txns_start, if_neg (Nat.ne_of_lt (hd.numbered t u hu))])
      rw [hsame]
  | @commit i =>
      rw [Store.txns_commit] at hruns
      split at hruns
      · cases hruns
      · rename_i hne
        have htxn : (s.commit i).txns t = some u := by rw [Store.txns_commit, if_neg hne, hu]
        rw [Store.get_visible htxn, Store.get_visible hu, hothers i rfl (Ne.symm hne)]
  | @rollback i =>
      rw [Store.txns_abort] at hruns
      split at hruns
      · cases hruns
      · rename_i hne
        have hsame : (s.abort i).visible t = s.visible t :=
          Store.visible_congr rfl (by rw [Store.txns_abort, if_neg hne])
        rw [hsame]
  | lock => rw [Store.visible_lock]
  | @write c r i v hv =>
      by_cases hi : t = i
      · subst hi
        rw [Store.get_visible_write hu, if_neg (hwrote v hv)]
      · rw [Store.visible_write_ne hi]

/-- The row that a transaction has locked keeps its committed version until the transaction ends. -/
theorem get_visible_of_locked (h : Effect D s c r s') (hd : s.Disciplined) {u : Txn α κ}
    (hu : s.txns t = some u) {k : κ} (hk : k ∈ u.locks)
    (hwrote : ∀ v, wrote ⟨c, r⟩ = some (t, v) → key v ≠ k) (hruns : (s'.txns t).isSome = true) :
    (s'.visible t).get k = (s.visible t).get k :=
  h.get_visible hd hu hwrote (fun _ _ hne => Store.get_commit_of_locked hd hu hk (Ne.symm hne))
    hruns

end Effect

/-! ### Ownership -/

def Began (h : Past α κ X A ε) (t : ℕ) : Prop := ∃ e ∈ h, began e = some t

/-- Every transaction was started by one process, which issues all its statements, and what it has
written was written by one of them. -/
structure Owned (s : Store α κ key) (tr : Traces α κ X A ε) : Prop where
  started : ∀ i e t, (i, e) ∈ tr → began e = some t → t < s.next
  single : ∀ i j e f t, (i, e) ∈ tr → (j, f) ∈ tr → began e = some t → began f = some t → i = j
  numbered : (tr.filterMap fun e => began e.2).Nodup
  owned : ∀ i e t, (i, e) ∈ tr → e.command.txn = some t → Began (historyOf i tr) t
  written : ∀ t u r, s.txns t = some u → r ∈ u.writes → ∃ i e, (i, e) ∈ tr ∧ wrote e = some (t, r)

section Ownership

variable {s s' : Store α κ key} {tr : Traces α κ X A ε} {i : ℕ} {c : Command α κ X}
  {r : Except ε (Reply A c)}

section Own

omit [DecidableEq κ]

theorem Owned.nil (hs : ∀ t, s.txns t = none) : Owned s ([] : Traces α κ X A ε) := by
  refine ⟨fun _ _ _ h => absurd h List.not_mem_nil, fun _ _ _ _ _ h => absurd h List.not_mem_nil,
    List.nodup_nil, fun _ _ _ h => absurd h List.not_mem_nil, fun t u r hu => ?_⟩
  rw [hs t] at hu
  cases hu

theorem Owned.lt_next (ho : Owned s tr) {t : ℕ} (hb : Began (historyOf i tr) t) : t < s.next := by
  obtain ⟨e, he, ht⟩ := hb
  exact ho.started i e t (mem_historyOf.mp he) ht

/-- Fewer transactions, and no earlier number to give. -/
theorem Owned.mono (ho : Owned s tr) (hnext : s.next ≤ s'.next)
    (htxns : ∀ t u, s'.txns t = some u → s.txns t = some u) : Owned s' tr :=
  ⟨fun j e t hj he => Nat.lt_of_lt_of_le (ho.started j e t hj he) hnext, ho.single, ho.numbered,
    ho.owned, fun t u r hu => ho.written t u r (htxns t u hu)⟩

theorem Owned.abort (ho : Owned s tr) (t : ℕ) : Owned (s.abort t) tr := by
  refine ho.mono (Nat.le_refl _) fun t' u hu => ?_
  rw [Store.txns_abort] at hu
  split at hu
  · cases hu
  · exact hu

theorem Began.cons {h : Past α κ X A ε} {t : ℕ} (hb : Began h t) (e : Happening α κ X A ε) :
    Began (e :: h) t := by
  obtain ⟨f, hf, ht⟩ := hb
  exact ⟨f, List.mem_cons_of_mem _ hf, ht⟩

theorem Began.suffix {h h' : Past α κ X A ε} {t : ℕ} (hb : Began h t) (hs : h <:+ h') :
    Began h' t := by
  obtain ⟨f, hf, ht⟩ := hb
  exact ⟨f, hs.subset hf, ht⟩

end Own

/-- A transaction that a process has begun is not begun again. -/
theorem Effect.began_lt (he : Effect D s c r s') {t : ℕ} (hb : began ⟨c, r⟩ = some t) :
    t = s.next ∧ s'.next = s.next + 1 := by
  cases he with
  | idle h =>
      rw [h] at hb
      cases hb
  | start =>
      cases hb
      exact ⟨rfl, rfl⟩
  | commit | rollback => cases hb
  | lock htxn =>
      have hnone := txn_of_began hb
      rw [htxn] at hnone
      cases hnone
  | write hwrote =>
      have hnone := txn_of_began hb
      rw [txn_of_told (told_of_wrote hwrote)] at hnone
      cases hnone

theorem Owned.call (ho : Owned s tr)
    (hb : ∀ t ∈ c.txn, Began (historyOf i tr) t) (he : Effect D s c r s') :
    Owned s' ((i, ⟨c, r⟩) :: tr) := by
  have hbegan : ∀ {j e t}, (j, e) ∈ (i, (⟨c, r⟩ : Happening α κ X A ε)) :: tr → began e = some t →
      (j = i ∧ t = s.next ∧ s'.next = s.next + 1) ∨ (j, e) ∈ tr := by
    intro j e t hmem hbt
    rcases List.mem_cons.mp hmem with heq | hmem
    · cases heq
      exact .inl ⟨rfl, he.began_lt hbt⟩
    · exact .inr hmem
  refine ⟨fun j e t hj hbt => ?_, fun j k e f t hj hk hbt hbt' => ?_, ?_, fun j e t hj htxn => ?_,
    fun t u v hu hv => ?_⟩
  · rcases hbegan hj hbt with ⟨-, rfl, hnext⟩ | hj
    · rw [hnext]
      exact Nat.lt_succ_self _
    · exact Nat.lt_of_lt_of_le (ho.started j e t hj hbt) he.next_le
  · rcases hbegan hj hbt with ⟨rfl, rfl, -⟩ | hold
    · rcases hbegan hk hbt' with ⟨rfl, -⟩ | hold'
      · rfl
      · exact absurd (ho.started k f _ hold' hbt') (Nat.lt_irrefl _)
    · rcases hbegan hk hbt' with ⟨rfl, rfl, -⟩ | hold'
      · exact absurd (ho.started j e _ hold hbt) (Nat.lt_irrefl _)
      · exact ho.single j k e f t hold hold' hbt hbt'
  · rw [List.filterMap_cons]
    cases hnew : began (⟨c, r⟩ : Happening α κ X A ε) with
    | none => exact ho.numbered
    | some t =>
        refine List.nodup_cons.mpr ⟨fun hmem => ?_, ho.numbered⟩
        obtain ⟨⟨j, e⟩, hj, hbt⟩ := List.mem_filterMap.mp hmem
        exact Nat.ne_of_lt (ho.started j e t hj hbt) (he.began_lt hnew).1
  · have hgrow : ∀ {j}, Began (historyOf j tr) t →
        Began (historyOf j ((i, (⟨c, r⟩ : Happening α κ X A ε)) :: tr)) t := by
      rintro j ⟨f, hf, hft⟩
      exact ⟨f, mem_historyOf.mpr (List.mem_cons_of_mem _ (mem_historyOf.mp hf)), hft⟩
    rcases List.mem_cons.mp hj with heq | hj
    · cases heq
      exact hgrow (hb t htxn)
    · exact hgrow (ho.owned j e t hj htxn)
  · rcases he.txns hu with ⟨-, -, rfl⟩ | ⟨u₀, hu₀, -, -, hwrites⟩
    · cases hv
    · rcases hwrites v hv with hv | hwrote
      · obtain ⟨j, e, hj, hw⟩ := ho.written t u₀ v hu₀ hv
        exact ⟨j, e, List.mem_cons_of_mem _ hj, hw⟩
      · exact ⟨i, ⟨c, r⟩, List.mem_cons_self, hwrote⟩

end Ownership

/-! ### What a transaction knows -/

/-- The newest version of a row that a transaction has read under the lock or written. -/
def known (key : α → κ) (t : ℕ) (k : κ) (h : Past α κ X A ε) : Option α :=
  h.findSome? fun e => (told e).bind fun x => if x.1 = t ∧ key x.2 = k then some x.2 else none

section Known

variable {s s' : Store α κ key} {tr : Traces α κ X A ε} {t : ℕ} {k : κ} {v : α}
  {h : Past α κ X A ε} {e : Happening α κ X A ε}

theorem known_cons_of_told (he : told e = some (t, v)) : known key t (key v) (e :: h) = some v := by
  rw [known, List.findSome?_cons, he, Option.bind_some, if_pos ⟨rfl, rfl⟩]

theorem known_cons_of_ne (he : ∀ v, told e = some (t, v) → key v ≠ k) :
    known key t k (e :: h) = known key t k h := by
  rw [known, List.findSome?_cons]
  cases htold : told e with
  | none => rfl
  | some x =>
      obtain ⟨t', v⟩ := x
      rw [Option.bind_some, if_neg]
      · rfl
      · rintro ⟨rfl, hk⟩
        exact he v htold hk

theorem key_of_known (hk : known key t k h = some v) :
    key v = k ∧ ∃ e ∈ h, told e = some (t, v) := by
  obtain ⟨e, he, hv⟩ := List.exists_of_findSome?_eq_some hk
  obtain ⟨⟨t', v'⟩, htold, hif⟩ := Option.bind_eq_some_iff.mp hv
  split at hif
  · rename_i heq
    obtain ⟨rfl, hkey⟩ := heq
    cases hif
    exact ⟨hkey, e, he, htold⟩
  · cases hif

/-- The rows that running transactions know are as they know them. -/
def Knows (s : Store α κ key) (tr : Traces α κ X A ε) : Prop :=
  ∀ i t k v u, known key t k (historyOf i tr) = some v → s.txns t = some u →
    k ∈ u.locks ∧ (s.visible t).get k = some v

theorem began_of_known (ho : Owned s tr) {i : ℕ} (hk : known key t k (historyOf i tr) = some v) :
    Began (historyOf i tr) t := by
  obtain ⟨-, e, he, htold⟩ := key_of_known hk
  exact ho.owned i e t (mem_historyOf.mp he) (txn_of_told htold)

theorem Knows.nil (s : Store α κ key) : Knows s ([] : Traces α κ X A ε) := by
  intro i t k v u hk
  obtain ⟨-, e, he, -⟩ := key_of_known hk
  exact absurd he List.not_mem_nil

/-- What the statement itself has just told is so. -/
theorem Effect.of_told {c : Command α κ X} {r : Except ε (Reply A c)} {u' : Txn α κ}
    (he : Effect D s c r s') (htold : told ⟨c, r⟩ = some (t, v)) (hu' : s'.txns t = some u') :
    key v ∈ u'.locks ∧ (s'.visible t).get (key v) = some v := by
  cases he with
  | idle _ _ hlocked =>
      rw [locked_of_told htold] at hlocked
      cases hlocked
  | start | commit | rollback => cases htold
  | @lock c r t₀ k₀ htxn hlocked _ _ _ hsees =>
      rw [locked_of_told htold] at hlocked
      cases hlocked
      rw [Store.visible_lock]
      refine ⟨?_, hsees v htold⟩
      rw [Store.lock, Store.txns_grab, if_pos rfl] at hu'
      obtain ⟨u, -, rfl⟩ := Option.map_eq_some_iff.mp hu'
      exact List.mem_cons_self
  | @write c r t₀ v₀ hwrote hruns =>
      rw [told_of_wrote hwrote] at htold
      cases htold
      obtain ⟨u, hu⟩ := Option.isSome_iff_exists.mp hruns
      rw [Store.get_visible_write hu, if_pos rfl]
      refine ⟨?_, rfl⟩
      rw [Store.write, Store.txns_grab, if_pos rfl, hu] at hu'
      cases hu'
      exact List.mem_cons_self

theorem Knows.call {i : ℕ} {c : Command α κ X} {r : Except ε (Reply A c)} (hk : Knows s tr)
    (hd : s.Disciplined) (ho : Owned s tr) (hb : ∀ t ∈ c.txn, Began (historyOf i tr) t)
    (he : Effect D s c r s') : Knows s' ((i, ⟨c, r⟩) :: tr) := by
  intro j t k v u' hknown hu'
  have ho' : Owned s' ((i, ⟨c, r⟩) :: tr) := ho.call hb he
  have hruns : (s'.txns t).isSome = true := by rw [hu']; rfl
  rcases he.txns hu' with ⟨hbegan, -, -⟩ | ⟨u, hu, hlocks, -, -⟩
  · -- a transaction that has just begun knows nothing
    obtain ⟨-, f, hf, htold⟩ := key_of_known hknown
    have hnew : f ≠ ⟨c, r⟩ := by
      rintro rfl
      have hnone := txn_of_began hbegan
      rw [txn_of_told htold] at hnone
      cases hnone
    rcases List.mem_cons.mp (mem_historyOf.mp hf) with heq | hold
    · cases heq
      exact absurd rfl hnew
    · have hlt := ho.lt_next (ho.owned j f t hold (txn_of_told htold))
      exact absurd (he.began_lt hbegan).1 (Nat.ne_of_lt hlt)
  · -- the row is as it was before, unless this statement has told of it
    have hbefore : known key t k (historyOf j tr) = some v →
        (∀ v', wrote ⟨c, r⟩ = some (t, v') → key v' ≠ k) →
        k ∈ u'.locks ∧ (s'.visible t).get k = some v := by
      intro hold hwrote
      obtain ⟨hlocked, hsees⟩ := hk j t k v u hold hu
      rw [he.get_visible_of_locked hd hu hlocked hwrote hruns]
      exact ⟨hlocks hlocked, hsees⟩
    by_cases hij : i = j
    · subst hij
      rw [historyOf_cons_self] at hknown
      by_cases htold : ∃ v', told ⟨c, r⟩ = some (t, v') ∧ key v' = k
      · obtain ⟨v', htold, rfl⟩ := htold
        rw [known_cons_of_told htold] at hknown
        cases hknown
        exact he.of_told htold hu'
      · rw [known_cons_of_ne fun v' hv' hkey => htold ⟨v', hv', hkey⟩] at hknown
        exact hbefore hknown fun v' hv' hkey => htold ⟨v', told_of_wrote hv', hkey⟩
    · rw [historyOf_cons_ne hij] at hknown
      refine hbefore hknown fun v' hv' => ?_
      obtain ⟨f, hf, hft⟩ := hb t (txn_of_told (told_of_wrote hv'))
      obtain ⟨g, hg, hgt⟩ := began_of_known ho hknown
      exact absurd (ho.single i j f g t (mem_historyOf.mp hf) (mem_historyOf.mp hg) hft hgt) hij

theorem Knows.abort (hk : Knows s tr) (i : ℕ) : Knows (s.abort i) tr := by
  intro j t k v u hknown hu
  rw [Store.txns_abort] at hu
  split at hu
  · cases hu
  · rename_i hne
    have hsame : (s.abort i).visible t = s.visible t :=
      Store.visible_congr rfl (by rw [Store.txns_abort, if_neg hne])
    rw [hsame]
    exact hk j t k v u hknown hu

end Known

/-! ### How rows evolve -/

/-- Every running transaction sees the committed rows or later versions of them. -/
def Evolving (R : α → α → Prop) (s : Store α κ key) : Prop :=
  ∀ t u k v v', s.txns t = some u → s.rows.get k = some v → (s.visible t).get k = some v' → R v v'

section Evolving

variable {R : α → α → Prop} {s s' : Store α κ key} {c : Command α κ X} {r : Except ε (Reply A c)}

theorem Evolving.nil (hs : ∀ t, s.txns t = none) : Evolving R s := by
  intro t u k v v' hu
  rw [hs t] at hu
  cases hu

theorem Evolving.abort (hv : Evolving R s) (i : ℕ) : Evolving R (s.abort i) := by
  intro t u k v v' hu hrow hsees
  rw [Store.txns_abort] at hu
  split at hu
  · cases hu
  · rename_i hne
    have hsame : (s.abort i).visible t = s.visible t :=
      Store.visible_congr rfl (by rw [Store.txns_abort, if_neg hne])
    rw [hsame] at hsees
    exact hv t u k v v' hu hrow hsees

/-- A committed row stays, and only gives way to later versions. -/
theorem Effect.evolves (he : Effect D s c r s') (hR : ∀ v, R v v) (hv : Evolving R s) {k : κ}
    {v : α} (hrow : s.rows.get k = some v) : ∃ v', s'.rows.get k = some v' ∧ R v v' := by
  rcases he.rows with heq | ⟨t, -, hruns, rfl⟩
  · rw [heq]
    exact ⟨v, hrow, hR v⟩
  · obtain ⟨u, hu⟩ := Option.isSome_iff_exists.mp hruns
    have hvisible : (s.commit t).rows = s.visible t := rfl
    rw [hvisible, Store.get_visible hu]
    cases hfind : u.writes.find? fun w => key w = k with
    | none => exact ⟨v, by rw [hrow, Option.none_or], hR v⟩
    | some v' =>
        refine ⟨v', Option.some_or, hv t u k v v' hu hrow ?_⟩
        rw [Store.get_visible hu, hfind, Option.some_or]

/-- The versions stay in order when every update takes a later version than the one before it. -/
theorem Evolving.call (hv : Evolving R s) (hd : s.Disciplined) (hR : ∀ v, R v v)
    (htrans : ∀ v v' v'', R v v' → R v' v'' → R v v'') (he : Effect D s c r s')
    (hupdate : ∀ t w old, wrote ⟨c, r⟩ = some (t, w) → inserted ⟨c, r⟩ = none →
      (s.visible t).get (key w) = some old → R old w) : Evolving R s' := by
  intro t u' k v v' hu' hrow hsees
  rcases he.txns hu' with ⟨-, -, rfl⟩ | ⟨u, hu, hlocks, -, -⟩
  · rw [Store.get_visible hu', List.find?_nil, Option.none_or, hrow] at hsees
    cases hsees
    exact hR v
  · have hsame : s'.rows = s.rows → s'.visible t = s.visible t → R v v' := by
      intro hrows hvisible
      rw [hrows] at hrow
      rw [hvisible] at hsees
      exact hv t u k v v' hu hrow hsees
    cases he with
    | idle => exact hsame rfl rfl
    | start =>
        refine hsame rfl (Store.visible_congr rfl ?_)
        rw [Store.txns_start, if_neg (Nat.ne_of_lt (hd.numbered t u hu))]
    | @rollback i =>
        rw [Store.txns_abort] at hu'
        split at hu'
        · cases hu'
        · rename_i hne
          exact hsame rfl (Store.visible_congr rfl (by rw [Store.txns_abort, if_neg hne]))
    | lock => exact hsame (Store.rows_grab ..) (Store.visible_lock ..)
    | @commit i =>
        rw [Store.txns_commit] at hu'
        split at hu'
        · cases hu'
        · rename_i hne
          have htxn : (s.commit i).txns t = some u := by rw [Store.txns_commit, if_neg hne, hu]
          rw [Store.get_visible htxn] at hsees
          cases hfind : u.writes.find? fun w => key w = k with
          | none =>
              rw [hfind, Option.none_or, hrow] at hsees
              cases hsees
              exact hR v
          | some w =>
              -- the transaction has locked the row, so the other one has not written it
              have hkey : key w = k := by simpa using List.find?_some hfind
              have hlock := hd.locked t u w hu (List.mem_of_find?_eq_some hfind)
              rw [hkey] at hlock
              rw [Store.get_commit_of_locked hd hu hlock hne] at hrow
              rw [hfind, Option.some_or] at hsees
              refine hv t u k v v' hu hrow ?_
              rw [Store.get_visible hu, hfind, Option.some_or, hsees]
    | @write c r i w hwrote _ _ _ _ hnew hold =>
        have hrows : (s.write i w).rows = s.rows := Store.rows_grab ..
        by_cases hi : t = i
        · subst hi
          rw [Store.get_visible_write hu] at hsees
          split at hsees
          · rename_i hkey
            cases hsees
            subst hkey
            rw [hrows] at hrow
            cases hins : inserted ⟨c, r⟩ with
            | none =>
                obtain ⟨old, hold⟩ := Option.isSome_iff_exists.mp (hold hins)
                exact htrans v old _ (hv t u _ v old hu hrow hold)
                  (hupdate t _ old hwrote hins hold)
            | some x =>
                have hx := wrote_of_inserted hins
                rw [hwrote] at hx
                cases hx
                have hadmits := hnew hins
                rw [Schema.admits, Bool.and_eq_true, Bool.and_eq_true, Option.isNone_iff_eq_none,
                  Store.get_visible hu, Option.or_eq_none_iff, hrow] at hadmits
                cases hadmits.1.1.2
          · rw [hrows] at hrow
            exact hv t u k v v' hu hrow hsees
        · exact hsame hrows (Store.visible_write_ne hi w)

end Evolving

end Gjallar.Sessions

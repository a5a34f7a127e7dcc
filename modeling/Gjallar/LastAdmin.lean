import Gjallar.AdminGuard

/-!
# An enabled administrator remains

The invariant of a system whose guards are careful. One transaction at most holds the guard. It has
locked an administrator and leaves one alone, and a transaction without the guard takes no
administrator away.
-/
namespace Gjallar.AdminGuard

open Gjallar.Text Gjallar.Operation Gjallar.ReadCommitted Gjallar.Processes Gjallar.Accounts

def Guarded (tr : Traces) (t : ℕ) : Prop := ∃ i, (i, ⟨.adminsLocked t, .ok ()⟩) ∈ tr

def Loaded (tr : Traces) (t : ℕ) (row : UserRecord) : Prop :=
  ∃ i name, (i, ⟨.userNamed t name, .ok (some row)⟩) ∈ tr

def Counted (tr : Traces) (t : ℕ) : Prop :=
  ∃ i, ∃ n : ℕ, 2 ≤ n ∧ (i, ⟨.enabledAdminCount t, .ok n⟩) ∈ tr

/-- What holds of a running transaction whose guard has returned. -/
structure Protects (rows : AccountRows) (tr : Traces) (t : ℕ) (u : Txn Row Key) : Prop where
  anchored : ∃ id, AdminAt rows id ∧ .user id ∈ u.locks
  spared : ∃ id, AdminAt rows id ∧
    ∀ r, .user r ∈ u.writes → r.userId = id → isEnabledAdmin r = true
  loaded : ∀ row, Loaded tr t row → isEnabledAdmin row = false →
    ∃ id, id ≠ row.userId ∧ AdminAt rows id
  counted : Counted tr t → ∀ id, ∃ id', id' ≠ id ∧ AdminAt rows id'

structure Safe (s : AccountStore) (tr : Traces) : Prop where
  disciplined : s.Disciplined
  exclusive : ∀ t t' u u', s.txns t = some u → s.txns t' = some u' →
    Guarded tr t → Guarded tr t' → t = t'
  guarded : ∀ t u, s.txns t = some u → Guarded tr t → Protects s.rows tr t u
  harmless : ∀ t u r, s.txns t = some u → ¬ Guarded tr t → .user r ∈ u.writes →
    AdminAt s.rows r.userId → isEnabledAdmin r = true

/-! ### What a transaction sees -/

section Visible

variable {s : AccountStore} {t : ℕ} {u : Txn Row Key} {id : Str}

/-- A transaction that has not written users sees the committed ones. -/
theorem userOf_visible (hu : ∀ u, s.txns t = some u → ∀ r, .user r ∉ u.writes) :
    userOf (s.visible t) id = userOf s.rows id := by
  cases ht : s.txns t with
  | none =>
      rw [visible_of_none ht]
  | some u =>
      have hnone : (u.writes.find? fun r => r.key = .user id) = none := by
        rw [List.find?_eq_none]
        intro r hr hkey
        rw [decide_eq_true_eq] at hkey
        cases r with
        | user r => exact hu u ht r hr
        | session r => cases hkey
      rw [userOf, get_visible ht, hnone, Option.none_or, userOf]

/-- An administrator remains one through a commit that writes no other version of the row. -/
theorem adminAt_commit (hadmin : AdminAt s.rows id)
    (hwrites : ∀ u, s.txns t = some u → ∀ r, .user r ∈ u.writes → r.userId = id →
      isEnabledAdmin r = true) : AdminAt (s.commit t).rows id := by
  obtain ⟨row, hrow, henabled⟩ := hadmin
  have hcommit : (s.commit t).rows = s.visible t := rfl
  rw [hcommit]
  cases ht : s.txns t with
  | none =>
      refine ⟨row, ?_, henabled⟩
      rwa [userOf_visible fun u hu => by rw [ht] at hu; cases hu]
  | some u =>
      cases hfound : u.writes.find? fun r => r.key = .user id with
      | none =>
          refine ⟨row, ?_, henabled⟩
          rwa [userOf, get_visible ht, hfound, Option.none_or, ← userOf]
      | some v =>
          have hv : v ∈ u.writes := List.mem_of_find?_eq_some hfound
          have hkey : v.key = .user id := by simpa using List.find?_some hfound
          cases v with
          | session v => cases hkey
          | user v =>
              refine ⟨v, ?_, hwrites u ht v hv (Key.user.inj hkey)⟩
              rw [userOf_eq_some, get_visible ht, hfound, Option.some_or]

end Visible

/-- A version that does not demote keeps an administrator one. -/
theorem isEnabledAdmin_of_writes {s : AccountStore} {t : ℕ} {c : Command} {r : UserRecord}
    (hw : Writes s t c (.user r)) (hvisible : ∀ id, userOf (s.visible t) id = userOf s.rows id)
    (hkeeps : ∀ id changes, c = .updateUser t id changes → ¬ Demotes changes)
    (hadmin : AdminAt s.rows r.userId) : isEnabledAdmin r = true := by
  obtain ⟨row, hrow, henabled⟩ := hadmin
  cases hw with
  | @update id changes old hold =>
      have hid : old.userId = id := userId_of_userOf hold
      have hsame : userOf s.rows id = some row := hid ▸ hrow
      rw [hvisible, hsame] at hold
      cases hold
      exact isEnabledAdmin_apply (hkeeps id changes rfl) henabled
  | insert hnone =>
      rw [hvisible, hrow] at hnone
      cases hnone

theorem exists_two_admins {rows : AccountRows}
    (h : 2 ≤ (users rows).countP isEnabledAdmin) : ∃ a b : UserRecord,
      (a ∈ users rows ∧ isEnabledAdmin a = true) ∧ (b ∈ users rows ∧ isEnabledAdmin b = true) ∧
      a.userId ≠ b.userId := by
  have hnodup := (nodup_users rows).filter isEnabledAdmin
  have hmem : ∀ a ∈ (users rows).filter isEnabledAdmin,
      a ∈ users rows ∧ isEnabledAdmin a = true := fun a ha => List.mem_filter.mp ha
  rw [List.countP_eq_length_filter] at h
  match hadmins : (users rows).filter isEnabledAdmin, h with
  | a :: b :: rest, _ =>
      rw [hadmins] at hnodup hmem
      refine ⟨a, b, hmem a (by simp), hmem b (by simp), fun hid => ?_⟩
      -- the identifier determines the row
      have ha := mem_users.mp (hmem a (by simp)).1
      have hb := mem_users.mp (hmem b (by simp)).1
      rw [hid, hb] at ha
      have hab : b = a := Option.some.inj ha
      subst hab
      exact (List.nodup_cons.mp hnodup).1 List.mem_cons_self

/-! ### The invariant -/

theorem guarded_cons {tr : Traces} {i t : ℕ} {c : Command} {r : Except AuthError (Reply c)}
    (h : Guarded ((i, ⟨c, r⟩) :: tr) t) : c = .adminsLocked t ∨ Guarded tr t := by
  obtain ⟨j, hj⟩ := h
  rcases List.mem_cons.mp hj with heq | hj
  · cases heq
    exact .inl rfl
  · exact .inr ⟨j, hj⟩

theorem Guarded.cons {tr : Traces} {t : ℕ} (h : Guarded tr t)
    (e : ℕ × Event Command fun c => Except AuthError (Reply c)) : Guarded (e :: tr) t :=
  let ⟨i, hi⟩ := h
  ⟨i, List.mem_cons_of_mem _ hi⟩

theorem loaded_cons {tr : Traces} {i t : ℕ} {c : Command} {r : Except AuthError (Reply c)}
    {row : UserRecord} (h : Loaded ((i, ⟨c, r⟩) :: tr) t row) :
    (∃ name, (⟨c, r⟩ : Event Command fun c => Except AuthError (Reply c)) =
      ⟨.userNamed t name, .ok (some row)⟩) ∨ Loaded tr t row := by
  obtain ⟨j, name, hj⟩ := h
  rcases List.mem_cons.mp hj with heq | hj
  · cases heq
    exact .inl ⟨name, rfl⟩
  · exact .inr ⟨j, name, hj⟩

theorem counted_cons {tr : Traces} {i t : ℕ} {c : Command} {r : Except AuthError (Reply c)}
    (h : Counted ((i, ⟨c, r⟩) :: tr) t) :
    (∃ n : ℕ, 2 ≤ n ∧ (⟨c, r⟩ : Event Command fun c => Except AuthError (Reply c)) =
      ⟨.enabledAdminCount t, .ok n⟩) ∨ Counted tr t := by
  obtain ⟨j, n, hn, hj⟩ := h
  rcases List.mem_cons.mp hj with heq | hj
  · cases heq
    exact .inl ⟨n, hn, rfl⟩
  · exact .inr ⟨j, n, hn, hj⟩

/-- Other rows in which the same users are administrators, and an event that says nothing new of
the transaction. -/
theorem Protects.mono {rows rows' : AccountRows} {tr tr' : Traces} {t : ℕ} {u : Txn Row Key}
    (h : Protects rows tr t u) (hrows : ∀ id, AdminAt rows id → AdminAt rows' id)
    (hloaded : ∀ row, Loaded tr' t row → Loaded tr t row)
    (hcounted : Counted tr' t → Counted tr t) :
    Protects rows' tr' t u := by
  refine ⟨?_, ?_, fun row hrow hadmin => ?_, fun hn id => ?_⟩
  · obtain ⟨id, hid, hlock⟩ := h.anchored
    exact ⟨id, hrows id hid, hlock⟩
  · obtain ⟨id, hid, hwrites⟩ := h.spared
    exact ⟨id, hrows id hid, hwrites⟩
  · obtain ⟨id, hne, hid⟩ := h.loaded row (hloaded row hrow) hadmin
    exact ⟨id, hne, hrows id hid⟩
  · obtain ⟨id', hne, hid⟩ := h.counted (hcounted hn) id
    exact ⟨id', hne, hrows id' hid⟩

/-- The events that the invariant remembers. -/
def Noted : Command → Bool
  | .adminsLocked _ | .userNamed .. | .enabledAdminCount _ => true
  | _ => false

namespace Safe

variable {s s' : AccountStore} {tr : Traces} {i : ℕ}

/-- A transaction is rolled back. -/
theorem abort (h : Safe s tr) (t : ℕ) : Safe (s.abort t) tr := by
  have hold : ∀ t' u, (s.abort t).txns t' = some u → s.txns t' = some u := by
    intro t' u hu
    rw [Store.txns_abort] at hu
    split at hu
    · cases hu
    · exact hu
  exact ⟨h.disciplined.step .abort, fun t₁ t₂ u₁ u₂ h₁ h₂ =>
      h.exclusive t₁ t₂ u₁ u₂ (hold t₁ u₁ h₁) (hold t₂ u₂ h₂),
    fun t' u hu => h.guarded t' u (hold t' u hu), fun t' u r hu => h.harmless t' u r (hold t' u hu)⟩

/-- An event that the invariant does not remember. -/
theorem silent (h : Safe s tr) {c : Command} {r : Except AuthError (Reply c)}
    (hc : Noted c = false) : Safe s ((i, ⟨c, r⟩) :: tr) := by
  have hguarded : ∀ {t}, Guarded ((i, ⟨c, r⟩) :: tr) t → Guarded tr t := by
    intro t ht
    refine (guarded_cons ht).resolve_left ?_
    rintro rfl
    cases hc
  refine ⟨h.disciplined, fun t t' u u' hu hu' ht ht' =>
    h.exclusive t t' u u' hu hu' (hguarded ht) (hguarded ht'), fun t u hu ht => ?_,
    fun t u r hu ht => h.harmless t u r hu fun hold => ht (hold.cons _)⟩
  refine (h.guarded t u hu (hguarded ht)).mono (fun _ hid => hid) (fun row hrow => ?_) fun hn => ?_
  · refine (loaded_cons hrow).resolve_left ?_
    rintro ⟨name, heq⟩
    cases heq
    cases hc
  · refine (counted_cons hn).resolve_left ?_
    rintro ⟨n, -, heq⟩
    cases heq
    cases hc

/-- While another transaction holds the guard, a commit takes no administrator away. -/
theorem adminAt_commit (h : Safe s tr) {t t' : ℕ} {u' : Txn Row Key} {id : Str}
    (ht' : s.txns t' = some u') (hguarded : Guarded tr t') (hne : t' ≠ t)
    (hadmin : AdminAt s.rows id) : AdminAt (s.commit t).rows id := by
  refine AdminGuard.adminAt_commit hadmin fun u hu r hr hid => ?_
  refine h.harmless t u r hu (fun ht => hne ?_) hr (hid ▸ hadmin)
  exact h.exclusive t' t u' u ht' hu hguarded ht

/-- A commit leaves an administrator. -/
theorem exists_adminAt_commit (h : Safe s tr) (t : ℕ) (hadmin : ∃ id, AdminAt s.rows id) :
    ∃ id, AdminAt (s.commit t).rows id := by
  by_cases hguarded : ∃ u, s.txns t = some u ∧ Guarded tr t
  · obtain ⟨u, hu, ht⟩ := hguarded
    obtain ⟨id, hid, hwrites⟩ := (h.guarded t u hu ht).spared
    refine ⟨id, AdminGuard.adminAt_commit hid fun u' hu' => ?_⟩
    rw [hu] at hu'
    cases hu'
    exact hwrites
  · obtain ⟨id, hid⟩ := hadmin
    refine ⟨id, AdminGuard.adminAt_commit hid fun u hu r hr hrow => ?_⟩
    exact h.harmless t u r hu (fun ht => hguarded ⟨u, hu, ht⟩) hr (hrow ▸ hid)

theorem commit (h : Safe s tr) {t : ℕ} : Safe (s.commit t) tr := by
  have hold : ∀ t' u, (s.commit t).txns t' = some u → t' ≠ t ∧ s.txns t' = some u := by
    intro t' u hu
    rw [Store.txns_commit] at hu
    split at hu
    · cases hu
    · rename_i hne
      exact ⟨hne, hu⟩
  refine ⟨h.disciplined.step .commit, fun t₁ t₂ u₁ u₂ h₁ h₂ =>
    h.exclusive t₁ t₂ u₁ u₂ (hold t₁ u₁ h₁).2 (hold t₂ u₂ h₂).2, fun t' u hu ht' => ?_,
    fun t' u r hu ht' hr hadmin => ?_⟩
  · obtain ⟨hne, hu⟩ := hold t' u hu
    refine (h.guarded t' u hu ht').mono (fun id hid => ?_) (fun _ hrow => hrow) fun hn => hn
    exact h.adminAt_commit hu ht' hne hid
  · obtain ⟨hne, hu⟩ := hold t' u hu
    refine h.harmless t' u r hu ht' hr ?_
    -- the row is locked by the transaction that has written the version
    have hlock := h.disciplined.locked t' u (.user r) hu hr
    have hsame := Store.get_commit_of_locked h.disciplined hu hlock hne
    obtain ⟨row, hrow, henabled⟩ := hadmin
    refine ⟨row, ?_, henabled⟩
    rw [userOf_eq_some] at hrow ⊢
    exact hsame ▸ hrow

theorem start (h : Safe s tr) (hfresh : ¬ Guarded tr s.next) :
    Safe s.start tr := by
  have hold : ∀ t u, s.start.txns t = some u → (t = s.next ∧ u = {}) ∨ s.txns t = some u := by
    intro t u hu
    rw [Store.txns_start] at hu
    split at hu
    · rename_i heq
      exact .inl ⟨heq, (Option.some.inj hu).symm⟩
    · exact .inr hu
  refine ⟨h.disciplined.step .start, fun t t' u u' hu hu' ht ht' => ?_, fun t u hu ht => ?_,
    fun t u r hu ht hr => ?_⟩
  · rcases hold t u hu with ⟨rfl, -⟩ | hu
    · exact absurd ht hfresh
    · rcases hold t' u' hu' with ⟨rfl, -⟩ | hu'
      · exact absurd ht' hfresh
      · exact h.exclusive t t' u u' hu hu' ht ht'
  · rcases hold t u hu with ⟨rfl, -⟩ | hu
    · exact absurd ht hfresh
    · exact h.guarded t u hu ht
  · rcases hold t u hu with ⟨-, rfl⟩ | hu
    · cases hr
    · exact h.harmless t u r hu ht hr

/-- A statement that writes a user is the first of its transaction to do so. -/
theorem unwritten_of_writes {h : Past} {c : Command} {t : ℕ} {v : UserRecord}
    (hallowed : Allowed h c) (hw : Writes s t c (.user v)) : Unwritten h t := by
  cases hw with
  | update => exact hallowed.2.1
  | insert => exact hallowed.2

theorem not_mem_writes (ho : Owned s tr) {t : ℕ} {u : Txn Row Key} (hb : Began (historyOf i tr) t)
    (hu : Unwritten (historyOf i tr) t) (ht : s.txns t = some u) (r : UserRecord) :
    .user r ∉ u.writes := by
  intro hr
  obtain ⟨j, e, he, htxn, hwrites⟩ := ho.written t u r ht hr
  rw [hu e (ho.mem_history hb he htxn) htxn] at hwrites
  cases hwrites

/-- A transaction that has written no user sees the committed users. -/
theorem userOf_visible (ho : Owned s tr) {t : ℕ} (hb : Began (historyOf i tr) t)
    (hu : Unwritten (historyOf i tr) t) (id : Str) :
    userOf (s.visible t) id = userOf s.rows id :=
  AdminGuard.userOf_visible fun _ ht => not_mem_writes ho hb hu ht

/-- A user that is read while the guard is held, and is not an enabled administrator, is not the
only one to be left. -/
theorem exists_other (h : Safe s tr) {t : ℕ} {u : Txn Row Key} {id : Str} (ht : s.txns t = some u)
    (hchecked : Checked (historyOf i tr) t id) : ∃ id', id' ≠ id ∧ AdminAt s.rows id' := by
  obtain ⟨hguarded, name, row, hloaded, rfl, hcounted⟩ := hchecked
  have hp := h.guarded t u ht ⟨i, mem_historyOf.mp hguarded⟩
  cases hadmin : isEnabledAdmin row with
  | false => exact hp.loaded row ⟨i, name, mem_historyOf.mp hloaded⟩ hadmin
  | true =>
      obtain ⟨n, hn, hcount⟩ := hcounted hadmin
      exact hp.counted ⟨i, n, hn, mem_historyOf.mp hcount⟩ row.userId

/-- What a statement writes while the guard is held spares an administrator. -/
theorem spared_append (h : Safe s tr) (ho : Owned s tr) {c : Command} {t : ℕ} {u : Txn Row Key}
    {versions : List Row}
    (hallowed : Allowed (historyOf i tr) c) (htxn : c.txn = some t)
    (hwrites : ∀ v ∈ versions, Writes s t c v) (ht : s.txns t = some u) (hguarded : Guarded tr t) :
    ∃ id, AdminAt s.rows id ∧
      ∀ r, .user r ∈ versions ++ u.writes → r.userId = id → isEnabledAdmin r = true := by
  have hb : Began (historyOf i tr) t := hallowed.1 t htxn
  by_cases hdemotes : ∃ id changes, c = .updateUser t id changes ∧ Demotes changes
  · obtain ⟨id, changes, rfl, hdemotes⟩ := hdemotes
    obtain ⟨hunwritten, hchecked⟩ := hallowed.2
    obtain ⟨id', hne, hid'⟩ := h.exists_other ht (hchecked hdemotes)
    refine ⟨id', hid', fun r hr hrow => ?_⟩
    rcases List.mem_append.mp hr with hr | hr
    · cases hwrites _ hr with
      | @update _ _ old hold =>
          have hid : old.userId = id := userId_of_userOf hold
          exact absurd (hrow.symm.trans hid) hne
    · exact absurd hr (not_mem_writes ho hb hunwritten ht r)
  · obtain ⟨id, hid, hspared⟩ := (h.guarded t u ht hguarded).spared
    refine ⟨id, hid, fun r hr hrow => ?_⟩
    rcases List.mem_append.mp hr with hr | hr
    · refine isEnabledAdmin_of_writes (hwrites _ hr) ?_ ?_ (hrow ▸ hid)
      · exact userOf_visible ho hb (unwritten_of_writes hallowed (hwrites _ hr))
      · exact fun id' changes hc hd => hdemotes ⟨id', changes, hc, hd⟩
    · exact hspared r hr hrow

theorem grab (h : Safe s tr) (ho : Owned s tr) {c : Command} {t : ℕ} {k : Key}
    {versions : List Row} (hallowed : Allowed (historyOf i tr) c) (htxn : c.txn = some t)
    (hfree : s.isFree t k = true) (hkey : ∀ v ∈ versions, v.key = k)
    (hwrites : ∀ v ∈ versions, Writes s t c v) : Safe (s.grab t k versions) tr := by
  have hb : Began (historyOf i tr) t := hallowed.1 t htxn
  have hold : ∀ t' u, (s.grab t k versions).txns t' = some u → s.txns t' = some u ∨
      ∃ u₀, t' = t ∧ s.txns t = some u₀ ∧ u = ⟨k :: u₀.locks, versions ++ u₀.writes⟩ := by
    intro t' u hu
    rw [Store.txns_grab] at hu
    split at hu
    · rename_i heq
      obtain ⟨u₀, hu₀, rfl⟩ := Option.map_eq_some_iff.mp hu
      exact .inr ⟨u₀, heq, hu₀, rfl⟩
    · exact .inl hu
  have hsome : ∀ t' u, (s.grab t k versions).txns t' = some u → ∃ u₀, s.txns t' = some u₀ := by
    intro t' u hu
    rcases hold t' u hu with hu | ⟨u₀, rfl, hu₀, -⟩
    · exact ⟨u, hu⟩
    · exact ⟨u₀, hu₀⟩
  refine ⟨h.disciplined.step (.grab hfree hkey), fun t₁ t₂ u₁ u₂ h₁ h₂ => ?_,
    fun t' u hu ht' => ?_, fun t' u v hu ht' hv hadmin => ?_⟩
  · obtain ⟨u₁', h₁'⟩ := hsome t₁ u₁ h₁
    obtain ⟨u₂', h₂'⟩ := hsome t₂ u₂ h₂
    exact h.exclusive t₁ t₂ u₁' u₂' h₁' h₂'
  · rw [Store.rows_grab]
    rcases hold t' u hu with hu | ⟨u₀, rfl, hu₀, rfl⟩
    · exact h.guarded t' u hu ht'
    · have hp := h.guarded t' u₀ hu₀ ht'
      obtain ⟨id₀, hid₀, hlock⟩ := hp.anchored
      exact ⟨⟨id₀, hid₀, List.mem_cons_of_mem _ hlock⟩,
        h.spared_append ho hallowed htxn hwrites hu₀ ht', hp.loaded, hp.counted⟩
  · rw [Store.rows_grab] at hadmin
    rcases hold t' u hu with hu | ⟨u₀, rfl, hu₀, rfl⟩
    · exact h.harmless t' u v hu ht' hv hadmin
    · rcases List.mem_append.mp hv with hv | hv
      · have hunwritten := unwritten_of_writes hallowed (hwrites _ hv)
        refine isEnabledAdmin_of_writes (hwrites _ hv) (userOf_visible ho hb hunwritten) ?_ hadmin
        rintro id changes rfl hdemotes
        exact ht' ⟨i, mem_historyOf.mp (hallowed.2.2 hdemotes).guarded⟩
      · exact h.harmless t' u₀ v hu₀ ht' hv hadmin

/-- The guard of a transaction returns. -/
theorem guard (h : Safe s tr) (ho : Owned s tr) {w : World} (hw : w.store = s) {t : ℕ}
    {r : Except AuthError Unit} (hallowed : Allowed (historyOf i tr) (.adminsLocked t))
    (hcareful : Careful w (.adminsLocked t)) :
    Safe s ((i, ⟨.adminsLocked t, r⟩) :: tr) := by
  subst hw
  have hb : Began (historyOf i tr) t := hallowed.1 t rfl
  have hfresh : Fresh (historyOf i tr) t := hallowed.2
  obtain ⟨hany, hall⟩ := hcareful
  have hlocked : ∀ {id}, AdminAt w.store.rows id →
      ∃ u, w.store.txns t = some u ∧ .user id ∈ u.locks := by
    rintro id ⟨row, hrow, henabled⟩
    have hid : row.userId = id := userId_of_userOf hrow
    exact hid ▸ hall row (mem_users.mpr (hid ▸ hrow)) henabled
  have hcases : ∀ {t'}, Guarded ((i, ⟨.adminsLocked t, r⟩) :: tr) t' → t' = t ∨ Guarded tr t' := by
    intro t' ht'
    refine (guarded_cons ht').imp_left fun heq => ?_
    cases heq
    rfl
  -- another guard has locked an administrator, and this one has locked them all
  have halone : ∀ {t' u'}, w.store.txns t' = some u' → Guarded tr t' → t' = t := by
    intro t' u' hu' ht'
    obtain ⟨id, hid, hlock⟩ := (h.guarded t' u' hu' ht').anchored
    obtain ⟨u, hu, hlock'⟩ := hlocked hid
    exact h.disciplined.exclusive t' t u' u (.user id) hu' hu hlock hlock'
  refine ⟨h.disciplined, fun t₁ t₂ u₁ u₂ h₁ h₂ hg₁ hg₂ => ?_, fun t' u hu ht' => ?_,
    fun t' u v hu ht' => h.harmless t' u v hu fun hold => ht' (hold.cons _)⟩
  · have heq₁ : t₁ = t := (hcases hg₁).elim id (halone h₁)
    have heq₂ : t₂ = t := (hcases hg₂).elim id (halone h₂)
    exact heq₁.trans heq₂.symm
  · have heq : t' = t := (hcases ht').elim id (halone hu)
    subst heq
    obtain ⟨row, hrow, henabled⟩ := List.any_eq_true.mp hany
    have hadmin : AdminAt w.store.rows row.userId := ⟨row, mem_users.mp hrow, henabled⟩
    have hsilent : ∀ j e, (j, e) ∈ (i, (⟨.adminsLocked t', r⟩ : Event _ _)) :: tr →
        e.command.txn = some t' → Noted e.command = true → e.command = .adminsLocked t' := by
      intro j e he htxn hnoted
      rcases List.mem_cons.mp he with heq | he
      · cases heq
        rfl
      · rcases hfresh e (ho.mem_history hb he htxn) htxn with hc | ⟨id, hc⟩
        · rw [hc] at hnoted
          cases hnoted
        · rw [hc] at hnoted
          cases hnoted
    refine ⟨?_, ⟨row.userId, hadmin, fun v hv => ?_⟩, ?_, ?_⟩
    · obtain ⟨u', hu', hlock⟩ := hlocked hadmin
      rw [hu] at hu'
      cases hu'
      exact ⟨row.userId, hadmin, hlock⟩
    · exact absurd hv (not_mem_writes ho hb hfresh.unwritten hu v)
    · rintro v ⟨j, name, hj⟩
      cases hsilent j _ hj rfl rfl
    · rintro ⟨j, n, -, hj⟩
      cases hsilent j _ hj rfl rfl

/-- A user is read by a transaction that has written none. -/
theorem load (h : Safe s tr) (ho : Owned s tr) {t : ℕ} {name : Str}
    {r : Except AuthError (Option UserRecord)}
    (hallowed : Allowed (historyOf i tr) (.userNamed t name))
    (hr : ∀ row, r = .ok (some row) → row ∈ users (s.visible t)) :
    Safe s ((i, ⟨.userNamed t name, r⟩) :: tr) := by
  have hguarded : ∀ {t'}, Guarded ((i, ⟨.userNamed t name, r⟩) :: tr) t' → Guarded tr t' :=
    fun ht' => (guarded_cons ht').resolve_left (by simp)
  refine ⟨h.disciplined, fun t₁ t₂ u₁ u₂ h₁ h₂ hg₁ hg₂ =>
    h.exclusive t₁ t₂ u₁ u₂ h₁ h₂ (hguarded hg₁) (hguarded hg₂), fun t' u hu ht' => ?_,
    fun t' u v hu ht' => h.harmless t' u v hu fun hold => ht' (hold.cons _)⟩
  have hp := h.guarded t' u hu (hguarded ht')
  refine ⟨hp.anchored, hp.spared, fun row hrow hadmin => ?_, fun hn => hp.counted ?_⟩
  · rcases loaded_cons hrow with ⟨_, heq⟩ | hrow
    · cases heq
      obtain ⟨id, ⟨other, hother, henabled⟩, -⟩ := hp.anchored
      refine ⟨id, ?_, other, hother, henabled⟩
      rintro rfl
      have hsame := mem_users.mp (hr row rfl)
      rw [userOf_visible ho (hallowed.1 _ rfl) hallowed.2, hother] at hsame
      cases hsame
      rw [henabled] at hadmin
      cases hadmin
    · exact hp.loaded row hrow hadmin
  · refine (counted_cons hn).resolve_left ?_
    rintro ⟨_, -, heq⟩
    cases heq

/-- The administrators are counted by a transaction that has written no user. -/
theorem count (h : Safe s tr) (ho : Owned s tr) {t : ℕ} {r : Except AuthError ℕ}
    (hallowed : Allowed (historyOf i tr) (.enabledAdminCount t))
    (hr : ∀ n, r = .ok n → n = (users (s.visible t)).countP isEnabledAdmin) :
    Safe s ((i, ⟨.enabledAdminCount t, r⟩) :: tr) := by
  have hguarded : ∀ {t'}, Guarded ((i, ⟨.enabledAdminCount t, r⟩) :: tr) t' → Guarded tr t' :=
    fun ht' => (guarded_cons ht').resolve_left (by simp)
  refine ⟨h.disciplined, fun t₁ t₂ u₁ u₂ h₁ h₂ hg₁ hg₂ =>
    h.exclusive t₁ t₂ u₁ u₂ h₁ h₂ (hguarded hg₁) (hguarded hg₂), fun t' u hu ht' => ?_,
    fun t' u v hu ht' => h.harmless t' u v hu fun hold => ht' (hold.cons _)⟩
  have hp := h.guarded t' u hu (hguarded ht')
  refine ⟨hp.anchored, hp.spared, fun row hrow => hp.loaded row ?_, fun hn id => ?_⟩
  · refine (loaded_cons hrow).resolve_left ?_
    rintro ⟨_, heq⟩
    cases heq
  · rcases counted_cons hn with ⟨n, htwo, heq⟩ | hn
    · cases heq
      obtain ⟨a, b, ha, hb, hne⟩ := exists_two_admins (hr n rfl ▸ htwo)
      have hvisible := userOf_visible ho (hallowed.1 _ rfl) hallowed.2
      by_cases hid : a.userId = id
      · refine ⟨b.userId, fun hb' => hne (hid.trans hb'.symm), b, ?_, hb.2⟩
        exact hvisible b.userId ▸ mem_users.mp hb.1
      · exact ⟨a.userId, hid, a, hvisible a.userId ▸ mem_users.mp ha.1, ha.2⟩
    · exact hp.counted hn id

theorem call {w w' : World} (h : Safe w.store tr) (ho : Owned w.store tr) {c : Command}
    {r : Except AuthError (Reply c)} (hallowed : Allowed (historyOf i tr) c)
    (hexec : Exec w c r w') (hcareful : Careful w c) : Safe w'.store ((i, ⟨c, r⟩) :: tr) := by
  by_cases hnoted : Noted c = true
  · have hsame : w'.store = w.store := by
      rcases hexec with ⟨a, rfl, hperforms⟩ | ⟨-, rfl⟩
      · cases c with
        | adminsLocked => exact congrArg World.store hperforms.2
        | userNamed => exact congrArg World.store hperforms.2.1
        | enabledAdminCount => exact congrArg World.store hperforms.2.1
        | _ => cases hnoted
      · rfl
    rw [hsame]
    cases c with
    | adminsLocked t => exact h.guard ho rfl hallowed hcareful
    | userNamed t name =>
        refine h.load ho hallowed fun row hr => ?_
        rcases hexec with ⟨a, rfl, -, -, hfound⟩ | ⟨rfl, -⟩
        · cases hr
          exact List.mem_of_find?_eq_some hfound.symm
        · cases hr
    | enabledAdminCount t =>
        refine h.count ho hallowed fun n hr => ?_
        rcases hexec with ⟨a, rfl, -, -, hcount⟩ | ⟨rfl, -⟩
        · cases hr
          exact hcount
        · cases hr
    | _ => cases hnoted
  · refine silent ?_ (Bool.eq_false_iff.mpr hnoted)
    have heffect := hexec.effect
    generalize w'.store = s' at heffect ⊢
    cases heffect with
    | nothing => exact h
    | start =>
        refine h.start ?_
        rintro ⟨j, hj⟩
        exact absurd (ho.started j _ (ho.owned j _ _ hj rfl)) (Nat.lt_irrefl _)
    | grab htxn hfree hkey hwrites => exact h.grab ho hallowed htxn hfree hkey hwrites
    | rollback => exact h.abort _
    | commit => exact h.commit

end Safe

/-! ### Every run -/

abbrev Careful.system (pw : Passwords) :
    System Command (fun c => Except AuthError (Reply c)) Outcome World :=
  (Accounts.system (Entry pw)).restrict Careful

theorem safe_of_reachable {pw : Passwords} {s : AccountState}
    (h : (Careful.system pw).Reachable Quiescent s) :
    Owned s.world.store s.trace ∧ Safe s.world.store s.trace := by
  refine Contract.invariant (D := contract)
    (I := fun (w : World) tr => Owned w.store tr ∧ Safe w.store tr)
    (fun p hp => entry_follows hp) (fun w hw => ⟨Owned.nil hw, ?_⟩) ?_ ?_ h
  · refine ⟨⟨fun t u hu => ?_, fun t t' u u' k hu => ?_, fun t u r hu => ?_⟩,
      fun t t' u u' hu => ?_, fun t u hu => ?_, fun t u r hu => ?_⟩
    all_goals
      rw [hw t] at hu
      cases hu
  · rintro w tr i c r w' ⟨ho, hsafe⟩ hallowed ⟨hexec, hcareful⟩
    exact ⟨ho.call hallowed.1 hexec.effect, hsafe.call ho hallowed hexec hcareful⟩
  · rintro w tr w' ⟨ho, hsafe⟩ henv
    cases henv with
    | time => exact ⟨ho, hsafe⟩
    | lost t => exact ⟨ho.abort t, hsafe.abort t⟩

/-- One step leaves an administrator. -/
theorem hasAdmin_step {pw : Passwords} {s s' : AccountState}
    (h : (Careful.system pw).Reachable Quiescent s) (hs : (Careful.system pw).Step s s')
    (hadmin : HasAdmin s.world) : HasAdmin s'.world := by
  obtain ⟨ho, hsafe⟩ := safe_of_reachable h
  cases hs with
  | start => exact hadmin
  | crash => exact hadmin
  | environment henv =>
      cases henv with
      | time => exact hadmin
      | lost => exact hadmin
  | @call w ps t w' i c k r hi hexec =>
      have heffect := hexec.1.effect
      unfold HasAdmin at hadmin ⊢
      dsimp only at hadmin hsafe ⊢
      generalize w'.store = store at heffect ⊢
      cases heffect with
      | nothing => exact hadmin
      | start => exact hadmin
      | grab =>
          rw [Store.rows_grab]
          exact hadmin
      | rollback => exact hadmin
      | commit => exact hsafe.exists_adminAt_commit _ hadmin

/-- The committed rows are changed by the commit of a process, and none that raises has issued
one. -/
theorem committed_by {pw : Passwords} {s₁ s₂ s' : AccountState}
    (h : (Accounts.system (Entry pw)).Reachable Quiescent s₁)
    (hs : (Accounts.system (Entry pw)).Step s₁ s₂)
    (hrun : Relation.ReflTransGen (Accounts.system (Entry pw)).Step s₂ s')
    (hrows : s₂.world.store.rows ≠ s₁.world.store.rows) :
    ∃ i e, s₂.trace = (i, e) :: s₁.trace ∧ ∀ err, s'.programs[i]? ≠ some (.done (.error err)) := by
  have hreach : (Accounts.system (Entry pw)).Reachable Quiescent s' := (h.step hs).steps hrun
  have hsuffix := System.trace_suffix hrun
  cases hs with
  | start => exact absurd rfl hrows
  | crash => exact absurd rfl hrows
  | environment henv =>
      cases henv with
      | time => exact absurd rfl hrows
      | lost => exact absurd rfl hrows
  | call i c k r hi hexec =>
      obtain ⟨t, heq⟩ := hexec.effect.committed hrows
      refine ⟨i, ⟨c, r⟩, rfl, fun err hend => ?_⟩
      have hends := Contract.ends_of_reachable (D := contract) (fun p hp => entry_follows hp)
        hreach hend
      refine hends err rfl t (mem_historyOf.mpr (hsuffix.subset ?_))
      rw [heq]
      exact List.mem_cons_self

/-- As long as every guard locks all the administrators there are when it returns, and there are
some, an enabled administrator remains; and a call that raises changes nothing. -/
theorem an_enabled_admin_remains (pw : Passwords) {s s' : AccountState}
    (h : (Careful.system pw).Reachable Quiescent s)
    (hrun : Relation.ReflTransGen (Careful.system pw).Step s s') :
    (HasAdmin s.world → HasAdmin s'.world) ∧
    ∀ s₁ s₂, (Careful.system pw).Reachable Quiescent s₁ → (Careful.system pw).Step s₁ s₂ →
      Relation.ReflTransGen (Careful.system pw).Step s₂ s' →
      s₂.world.store.rows ≠ s₁.world.store.rows →
      ∃ i e, s₂.trace = (i, e) :: s₁.trace ∧
        ∀ err, s'.programs[i]? ≠ some (.done (.error err)) := by
  refine ⟨fun hadmin => ?_, fun s₁ s₂ h₁ hs h₂ => ?_⟩
  · induction hrun with
    | refl => exact hadmin
    | tail hrest hstep ih => exact hasAdmin_step (h.steps hrest) hstep ih
  · exact committed_by h₁.of_restrict hs.of_restrict (System.steps_of_restrict h₂)

/-! ### Scenes -/

instance (w : World) : Decidable (HasAdmin w) :=
  decidable_of_iff ((users w.store.rows).any isEnabledAdmin = true) <| by
    rw [List.any_eq_true]
    constructor
    · exact fun ⟨row, hrow, henabled⟩ => ⟨row.userId, row, mem_users.mp hrow, henabled⟩
    · rintro ⟨id, row, hrow, henabled⟩
      have hid : row.userId = id := userId_of_userOf hrow
      exact ⟨row, mem_users.mpr (hid ▸ hrow), henabled⟩

def sampleUser (userId username : Str) (role : Role) : Row :=
  .user ⟨userId, username, "hash", role, true, Instant.seconds 0, Instant.seconds 0, none⟩

/-- The administrator `a` and the viewers `c` and `d`. -/
def sampleWorld : World :=
  ⟨⟨⟨[sampleUser "1" "a" .admin, sampleUser "2" "c" .viewer, sampleUser "3" "d" .viewer],
    by decide⟩, fun _ => none, 0⟩, Instant.seconds 1⟩

def samplePasswords : Passwords := ⟨fun salt password => .ok (salt ++ password), fun _ _ => true⟩

/-- Calls that are about to begin. -/
def sampleCalls : AccountState :=
  ⟨sampleWorld, [asProcess .user (setUserRole "a" "viewer"),
    asProcess .user (setUserRole "c" "viewer"),
    asProcess .user (setUserRole "c" "admin"), asProcess .user (setUserRole "d" "admin"),
    asProcess .user (setUserRole "d" "viewer")], []⟩

theorem reachable_sampleCalls {P : World → Command → Prop} :
    ((Accounts.system (Entry samplePasswords)).restrict P).Reachable Quiescent sampleCalls := by
  refine System.reachable_programs (fun _ => rfl) _ fun p hp => ?_
  simp only [List.mem_cons, List.not_mem_nil, or_false] at hp
  rcases hp with rfl | rfl | rfl | rfl | rfl <;> exact .setUserRole _ _

/-- `c` is promoted, then `a` is demoted. -/
theorem an_enabled_admin_remains_after_handover :
    let s := System.playAll answer Careful [(2, 6), (0, 11)] sampleCalls
    s.trace.length = 17 ∧ (userOf s.world.store.rows "1").map UserRecord.role = some .viewer ∧
      (userOf s.world.store.rows "2").map UserRecord.role = some .admin ∧ HasAdmin s.world := by
  refine ⟨by decide, by decide, by decide, ?_⟩
  exact (an_enabled_admin_remains samplePasswords reachable_sampleCalls
    (System.steps_playAll exec_answer [(2, 6), (0, 11)] sampleCalls)).1 (by decide)

/-- The guard of a demotion of `c` waits for `a` while `a` is demoted and `c` and `d` are promoted.
It then protects neither, and `d` is demoted under a guard of its own. -/
theorem no_admin_remains :
    ¬ ∀ pw, ∀ s s' : AccountState, (Accounts.system (Entry pw)).Reachable Quiescent s →
      Relation.ReflTransGen (Accounts.system (Entry pw)).Step s s' →
      HasAdmin s.world → HasAdmin s'.world := by
  intro h
  have hsteps := System.steps_playAll (S := Accounts.system (Entry samplePasswords))
    (P := fun _ _ => True) exec_answer
    [(0, 6), (1, 4), (2, 6), (0, 4), (3, 6), (1, 4), (4, 11), (1, 2)] sampleCalls
  have hlast := h samplePasswords sampleCalls _
    (reachable_sampleCalls (P := fun _ _ => True)).of_restrict
    (System.steps_of_restrict hsteps) (by decide)
  revert hlast
  decide

end Gjallar.AdminGuard

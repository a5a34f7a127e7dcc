import Gjallar.Accounts

/-!
# What a statement does to the account tables

One inversion lemma for the statements, and which process a transaction belongs to. Both are shared
by the results about administrators and about passwords.
-/
namespace Gjallar.Accounts

open Gjallar.Text Gjallar.Operation Gjallar.ReadCommitted Gjallar.Processes
  Gjallar.Processes.Fallible

abbrev Traces := Trace Command fun c => Except AuthError (Reply c)

/-- The version of a row that a statement writes in a transaction. -/
inductive Writes (s : AccountStore) (t : ℕ) : Command → Row → Prop
  | update {id : Str} {changes : UserChanges} {old : UserRecord}
      (hold : userOf (s.visible t) id = some old) :
      Writes s t (.updateUser t id changes) (.user (changes.apply old))
  | insert {row : UserRecord} (hnone : userOf (s.visible t) row.userId = none) :
      Writes s t (.insertUser t row) (.user row)
  | revoke {r : Revocation} {id : Str} {row : SessionRecord}
      (hrow : sessionOf (s.visible t) id = some row) (hselects : r.selects row = true) :
      Writes s t (.revokeSession t r id) (.session { row with revokedAt := some r.revokedAt })
  | issue {row : SessionRecord} (hnone : sessionOf (s.visible t) row.sessionId = none) :
      Writes s t (.insertSession t row) (.session row)
  | mark {id : Str} {revokedAt : Instant} {row : SessionRecord}
      (hrow : sessionOf (s.visible t) id = some row) :
      Writes s t (.markRevoked t id revokedAt) (.session { row with revokedAt := some revokedAt })

/-- What a statement that was answered has done to the store. -/
inductive Effect (s : AccountStore) :
    (c : Command) → Except AuthError (Reply c) → AccountStore → Prop
  | nothing {c : Command} {r : Except AuthError (Reply c)}
      (hstart : c ≠ .start ∨ ∃ e, r = .error e) : Effect s c r s
  | start : Effect s .start (.ok s.next) s.start
  | grab {c : Command} {a : Reply c} {t : ℕ} {k : Key} {versions : List Row}
      (htxn : c.txn = some t) (hfree : s.isFree t k = true) (hkey : ∀ v ∈ versions, v.key = k)
      (hwrites : ∀ v ∈ versions, Writes s t c v) : Effect s c (.ok a) (s.grab t k versions)
  | rollback {t : ℕ} : Effect s (.rollback t) (.ok ()) (s.abort t)
  | commit {t : ℕ} : Effect s (.commit t) (.ok ()) (s.commit t)

theorem Exec.effect {w w' : World} {c : Command} {r : Except AuthError (Reply c)}
    (h : Exec w c r w') : Effect w.store c r w'.store := by
  rcases h with ⟨a, rfl, h⟩ | ⟨rfl, rfl⟩
  · cases c with
    | receive | draw =>
        cases h
        exact .nothing (.inl (by simp))
    | now | adminsLocked =>
        obtain ⟨-, rfl⟩ := h
        exact .nothing (.inl (by simp))
    | scanAdmins | userNamed | userWithId | enabledAdminCount | scanSessions | sessionWithHash =>
        obtain ⟨-, rfl, -⟩ := h
        exact .nothing (.inl (by simp))
    | start =>
        obtain ⟨rfl, rfl⟩ := h
        exact .start
    | commit t =>
        obtain ⟨-, rfl⟩ := h
        exact .commit
    | rollback t =>
        cases h
        exact .rollback
    | lockAdmin t id =>
        obtain ⟨-, hfree, rfl⟩ := h
        exact .grab rfl hfree (by simp) (by simp)
    | updateUser t id changes =>
        obtain ⟨-, hfree, row, hrow, rfl⟩ := h
        have hid : row.userId = id := userId_of_userOf hrow
        have hkey : (Row.user (changes.apply row)).key = .user id := congrArg Key.user hid
        refine .grab rfl (hkey ▸ hfree) (by simp) ?_
        intro v hv
        cases List.mem_singleton.mp hv
        exact .update hrow
    | insertUser t row =>
        obtain ⟨-, hfree, -, hnone, -, rfl⟩ := h
        refine .grab rfl hfree (by simp [Row.key]) ?_
        intro v hv
        cases List.mem_singleton.mp hv
        exact .insert hnone
    | revokeSession t r id =>
        obtain ⟨-, hfree, row, hrow, -, rfl⟩ := h
        have hid : row.sessionId = id := sessionId_of_sessionOf hrow
        by_cases hselects : r.selects row = true
        · rw [if_pos hselects]
          refine .grab rfl (hid ▸ hfree) (by simp [Row.key]) ?_
          intro v hv
          cases List.mem_singleton.mp hv
          exact .revoke hrow hselects
        · rw [if_neg hselects]
          exact .grab rfl hfree (by simp) (by simp)
    | insertSession t row =>
        obtain ⟨-, hfree, -, hnone, -, -, rfl⟩ := h
        refine .grab rfl hfree (by simp [Row.key]) ?_
        intro v hv
        cases List.mem_singleton.mp hv
        exact .issue hnone
    | markRevoked t id revokedAt =>
        obtain ⟨-, hfree, row, hrow, rfl⟩ := h
        have hid : row.sessionId = id := sessionId_of_sessionOf hrow
        refine .grab rfl (hid ▸ hfree) (by simp [Row.key]) ?_
        intro v hv
        cases List.mem_singleton.mp hv
        exact .mark hrow
  · exact .nothing (.inr ⟨_, rfl⟩)

theorem Exec.clock {w w' : World} {c : Command} {r : Except AuthError (Reply c)}
    (h : Exec w c r w') : w'.clock = w.clock := by
  rcases h with ⟨a, rfl, h⟩ | ⟨rfl, rfl⟩
  · cases c with
    | receive | draw | rollback =>
        cases h
        rfl
    | now | adminsLocked | start | commit =>
        obtain ⟨-, rfl⟩ := h
        rfl
    | scanAdmins | userNamed | userWithId | enabledAdminCount | scanSessions | sessionWithHash =>
        obtain ⟨-, rfl, -⟩ := h
        rfl
    | lockAdmin =>
        obtain ⟨-, -, rfl⟩ := h
        rfl
    | updateUser | markRevoked =>
        obtain ⟨-, -, row, -, rfl⟩ := h
        rfl
    | insertUser =>
        obtain ⟨-, -, -, -, -, rfl⟩ := h
        rfl
    | revokeSession =>
        obtain ⟨-, -, row, -, -, rfl⟩ := h
        rfl
    | insertSession =>
        obtain ⟨-, -, -, -, -, -, rfl⟩ := h
        rfl
  · rfl

/-- A transaction that has ended does not run again. -/
theorem Effect.ended {s s' : AccountStore} {c : Command} {r : Except AuthError (Reply c)} {t : ℕ}
    (h : Effect s c r s') (ht : s.txns t = none) (hlt : t < s.next) : s'.txns t = none := by
  cases h with
  | nothing => exact ht
  | start => rw [Store.txns_start, if_neg (Nat.ne_of_lt hlt), ht]
  | grab =>
      rw [Store.txns_grab]
      split
      · rename_i heq
        rw [← heq, ht]
        rfl
      · exact ht
  | rollback =>
      rw [Store.txns_abort]
      split
      · rfl
      · exact ht
  | commit =>
      rw [Store.txns_commit]
      split
      · rfl
      · exact ht

theorem Effect.store_step {s s' : AccountStore} {c : Command} {r : Except AuthError (Reply c)}
    (h : Effect s c r s') : s' = s ∨ s.Step s' := by
  cases h with
  | nothing => exact .inl rfl
  | start => exact .inr .start
  | grab _ hfree hkey => exact .inr (.grab hfree hkey)
  | rollback => exact .inr .abort
  | commit => exact .inr .commit

/-- Only a commit changes the committed rows. -/
theorem Effect.committed {s s' : AccountStore} {c : Command} {r : Except AuthError (Reply c)}
    (h : Effect s c r s') (hrows : s'.rows ≠ s.rows) :
    ∃ t, (⟨c, r⟩ : Event Command fun c => Except AuthError (Reply c)) = ⟨.commit t, .ok ()⟩ := by
  cases h with
  | nothing => exact absurd rfl hrows
  | start => exact absurd rfl hrows
  | grab => exact absurd (Store.rows_grab ..) hrows
  | rollback => exact absurd rfl hrows
  | commit => exact ⟨_, rfl⟩

section Visible

variable {s : AccountStore} {t : ℕ} {u : Txn Row Key}

theorem get_visible (ht : s.txns t = some u) (k : Key) :
    (s.visible t).get k = (u.writes.find? fun r => r.key = k).or (s.rows.get k) := by
  rw [Store.visible, ht, Option.elim_some, Rows.get_putAll]

theorem visible_of_none (ht : s.txns t = none) : s.visible t = s.rows := by
  rw [Store.visible, ht]
  rfl

end Visible

def Began (h : Past) (t : ℕ) : Prop := ⟨.start, .ok t⟩ ∈ h

theorem began_txn {h : Past} {t : ℕ} {c : Command} (hb : Began h t) (hc : c.txn = some t) :
    ∀ t' ∈ c.txn, Began h t' := by
  intro t' ht'
  rw [hc] at ht'
  cases ht'
  exact hb

/-- The rule of a transaction: its body ends where the commit is allowed, or it is rolled back. -/
theorem obeys_sessionScope {α : Type} {possible : (c : Command) → Except AuthError (Reply c) → Prop}
    {allowed : Past → Command → Prop} {h : Past} {body : ℕ → Prog α} {Q : Past → α → Prop}
    (hstart : allowed h .start) (hrollback : ∀ h' t, Began h' t → allowed h' (.rollback t))
    (hbody : ∀ t, Obeys possible allowed (⟨.start, .ok t⟩ :: h) (body t) fun h' a =>
      allowed h' (.commit t) ∧ Q (⟨.commit t, .ok ()⟩ :: h') a) :
    Obeys possible allowed h (sessionScope body) Q := by
  refine (Obeys.call hstart).bind ?_
  rintro _ t - ⟨rfl, -⟩
  have hcommit : Obeys possible allowed (⟨.start, .ok t⟩ :: h)
      (do let a ← body t; Call.commit t; return a) Q := by
    refine (hbody t).bind fun h' a _ hq => (Obeys.call hq.1).bind ?_
    rintro _ ⟨⟩ - ⟨rfl, -⟩
    exact Obeys.pure hq.2
  refine (Obeys.attempt hcommit).bind ?_
  rintro h' r hsuffix hr
  cases r with
  | ok a => exact Obeys.pure (hr a rfl)
  | error e =>
      have hb : Began h' t := hsuffix.subset List.mem_cons_self
      exact (Obeys.call (hrollback h' t hb)).bind fun _ _ _ _ => Obeys.throw e

/-- Every transaction was started by one process, which issues all its statements, and what it has
written was written by one of them. -/
structure Owned (s : AccountStore) (tr : Traces) : Prop where
  started : ∀ i t, (i, ⟨.start, .ok t⟩) ∈ tr → t < s.next
  single : ∀ i j t, (i, ⟨.start, .ok t⟩) ∈ tr → (j, ⟨.start, .ok t⟩) ∈ tr → i = j
  owned : ∀ i e t, (i, e) ∈ tr → e.command.txn = some t → (i, ⟨.start, .ok t⟩) ∈ tr
  written : ∀ t u r, s.txns t = some u → .user r ∈ u.writes →
    ∃ i e, (i, e) ∈ tr ∧ e.command.txn = some t ∧ e.command.writesUser = true

namespace Owned

variable {s s' : AccountStore} {tr : Traces} {i : ℕ} {c : Command} {r : Except AuthError (Reply c)}

theorem nil (hs : ∀ t, s.txns t = none) : Owned s [] := by
  refine ⟨fun _ _ h => absurd h List.not_mem_nil, fun _ _ _ h => absurd h List.not_mem_nil,
    fun _ _ _ h => absurd h List.not_mem_nil, fun t u r hu => ?_⟩
  rw [hs t] at hu
  cases hu

/-- The statements of a transaction are in the history of the process that began it. -/
theorem mem_history (ho : Owned s tr) {t : ℕ} (hb : Began (historyOf i tr) t) {j : ℕ}
    {e : Event Command fun c => Except AuthError (Reply c)} (he : (j, e) ∈ tr)
    (htxn : e.command.txn = some t) : e ∈ historyOf i tr := by
  have hij := ho.single j i t (ho.owned j e t he htxn) (mem_historyOf.mp hb)
  exact mem_historyOf.mpr (hij ▸ he)

/-- Fewer transactions, and no earlier number to give. -/
theorem mono (ho : Owned s tr) (hnext : s'.next = s.next)
    (htxns : ∀ t u, s'.txns t = some u → s.txns t = some u) : Owned s' tr :=
  ⟨fun j t hj => hnext ▸ ho.started j t hj, ho.single, ho.owned,
    fun t u r hu => ho.written t u r (htxns t u hu)⟩

/-- An event that begins no transaction. -/
theorem cons (ho : Owned s tr) (hstart : c ≠ .start ∨ ∃ e, r = .error e)
    (hb : ∀ t ∈ c.txn, Began (historyOf i tr) t) : Owned s ((i, ⟨c, r⟩) :: tr) := by
  have hold : ∀ {j t}, (j, ⟨.start, .ok t⟩) ∈ (i, ⟨c, r⟩) :: tr → (j, ⟨.start, .ok t⟩) ∈ tr := by
    intro j t hmem
    rcases List.mem_cons.mp hmem with heq | hmem
    · cases heq
      rcases hstart with hne | ⟨_, he⟩
      · exact absurd rfl hne
      · cases he
    · exact hmem
  refine ⟨fun j t hj => ho.started j t (hold hj),
    fun j j' t hj hj' => ho.single j j' t (hold hj) (hold hj'), fun j e t he htxn => ?_,
    fun t u r hu hr => ?_⟩
  · rcases List.mem_cons.mp he with heq | he
    · cases heq
      exact List.mem_cons_of_mem _ (mem_historyOf.mp (hb t htxn))
    · exact List.mem_cons_of_mem _ (ho.owned j e t he htxn)
  · obtain ⟨j, e, he, hwrites⟩ := ho.written t u r hu hr
    exact ⟨j, e, List.mem_cons_of_mem _ he, hwrites⟩

theorem start (ho : Owned s tr) : Owned s.start ((i, ⟨.start, .ok s.next⟩) :: tr) := by
  have hnew : ∀ {j t}, (j, ⟨.start, .ok t⟩) ∈ (i, ⟨.start, .ok s.next⟩) :: tr →
      (j = i ∧ t = s.next) ∨ (j, ⟨.start, .ok t⟩) ∈ tr := by
    intro j t hmem
    rcases List.mem_cons.mp hmem with heq | hmem
    · cases heq
      exact .inl ⟨rfl, rfl⟩
    · exact .inr hmem
  refine ⟨fun j t hj => ?_, fun j j' t hj hj' => ?_, fun j e t he htxn => ?_, fun t u r hu hr => ?_⟩
  · rcases hnew hj with ⟨-, rfl⟩ | hj
    · exact Nat.lt_succ_self _
    · exact Nat.lt_succ_of_lt (ho.started j t hj)
  · rcases hnew hj with ⟨rfl, rfl⟩ | hold
    · rcases hnew hj' with ⟨rfl, -⟩ | hold'
      · rfl
      · exact absurd (ho.started j' _ hold') (Nat.lt_irrefl _)
    · rcases hnew hj' with ⟨rfl, rfl⟩ | hold'
      · exact absurd (ho.started j _ hold) (Nat.lt_irrefl _)
      · exact ho.single j j' t hold hold'
  · rcases List.mem_cons.mp he with heq | he
    · cases heq
      cases htxn
    · exact List.mem_cons_of_mem _ (ho.owned j e t he htxn)
  · rw [Store.txns_start] at hu
    split at hu
    · cases hu
      cases hr
    · obtain ⟨j, e, he, hwrites⟩ := ho.written t u r hu hr
      exact ⟨j, e, List.mem_cons_of_mem _ he, hwrites⟩

theorem abort (ho : Owned s tr) (t : ℕ) : Owned (s.abort t) tr := by
  refine ho.mono rfl fun t' u hu => ?_
  rw [Store.txns_abort] at hu
  split at hu
  · cases hu
  · exact hu

theorem call (ho : Owned s tr) (hb : ∀ t ∈ c.txn, Began (historyOf i tr) t)
    (he : Effect s c r s') : Owned s' ((i, ⟨c, r⟩) :: tr) := by
  cases he with
  | nothing hstart => exact ho.cons hstart hb
  | start => exact ho.start
  | rollback => exact (ho.cons (.inl (by simp)) hb).abort _
  | commit =>
      refine (ho.cons (.inl (by simp)) hb).mono rfl fun t u hu => ?_
      rw [Store.txns_commit] at hu
      split at hu
      · cases hu
      · exact hu
  | @grab c a t k versions htxn hfree hkey hwrites =>
      have hstart : c ≠ .start ∨ ∃ e, (Except.ok a : Except AuthError (Reply c)) = .error e := by
        refine .inl ?_
        rintro rfl
        cases htxn
      obtain ⟨hstarted, hsingle, howned, hwritten⟩ := ho.cons hstart hb
      refine ⟨fun j t hj => ?_, hsingle, howned, fun t' u row hu hr => ?_⟩
      · rw [Store.next_grab]
        exact hstarted j t hj
      · rw [Store.txns_grab] at hu
        split at hu
        · rename_i heq
          obtain ⟨u₀, hu₀, rfl⟩ := Option.map_eq_some_iff.mp hu
          rcases List.mem_append.mp hr with hr | hr
          · refine ⟨i, ⟨c, .ok a⟩, List.mem_cons_self, heq ▸ htxn, ?_⟩
            cases hwrites _ hr <;> rfl
          · exact hwritten t' u₀ row (heq ▸ hu₀) hr
        · exact hwritten t' u row hu hr

end Owned

/-! ### An executable reading of the statements -/

/-- The reply and the effect of a statement, if it may proceed. -/
def proceed {c : Command} (w : World) (b : Bool) (r : Reply c) (store : AccountStore) :
    Except AuthError (Reply c) × World :=
  if b then (.ok r, w.withStore store) else (.error .database, w)

/-- A statement that would wait for a row is refused. -/
def answer (w : World) (c : Command) : Except AuthError (Reply c) × World :=
  match c with
  | .receive _ => (.ok (), w)
  | .now => (.ok w.clock, w)
  | .draw => (.ok ("0" : Str), w)
  | .start => (.ok w.store.next, w.withStore w.store.start)
  | .commit t => proceed w (w.runs t) () (w.store.commit t)
  | .rollback t => (.ok (), w.withStore (w.store.abort t))
  | .scanAdmins t => proceed w (w.runs t)
      (((users (w.store.visible t)).filter isEnabledAdmin).map UserRecord.userId) w.store
  | .lockAdmin t id => proceed w (w.runs t && w.store.isFree t (.user id)) ()
      (w.store.lock t (.user id))
  | .adminsLocked t => proceed w (w.runs t) () w.store
  | .userNamed t username => proceed w (w.runs t)
      ((users (w.store.visible t)).find? fun row => row.username = username) w.store
  | .userWithId t id => proceed w (w.runs t) (userOf (w.store.visible t) id) w.store
  | .enabledAdminCount t => proceed w (w.runs t)
      ((users (w.store.visible t)).countP isEnabledAdmin) w.store
  | .updateUser t id changes =>
      match userOf (w.store.visible t) id with
      | none => (.error .database, w)
      | some row => proceed w (w.runs t && w.store.isFree t (.user id)) ()
          (w.store.write t (.user (changes.apply row)))
  | .insertUser t row => proceed w (w.runs t && w.store.isFree t (.user row.userId) &&
      nameFree w.store t row.username && (userOf (w.store.visible t) row.userId).isNone &&
      (users (w.store.visible t)).all fun r => r.username ≠ row.username) ()
      (w.store.write t (.user row))
  | .scanSessions t r => proceed w (w.runs t)
      (((sessions (w.store.visible t)).filter r.selects).map SessionRecord.sessionId) w.store
  | .revokeSession t r id =>
      match sessionOf (w.store.visible t) id with
      | none => (.error .database, w)
      | some row => proceed w (w.runs t && w.store.isFree t (.session id)) (r.selects row)
          (if r.selects row then
            w.store.write t (.session { row with revokedAt := some r.revokedAt })
          else w.store.lock t (.session id))
  | .insertSession t row => proceed w (w.runs t && w.store.isFree t (.session row.sessionId) &&
      tokenFree w.store t row.sessionTokenHash &&
      (sessionOf (w.store.visible t) row.sessionId).isNone &&
      ((sessions (w.store.visible t)).all fun r => r.sessionTokenHash ≠ row.sessionTokenHash) &&
      (userOf (w.store.visible t) row.userId).isSome) () (w.store.write t (.session row))
  | .sessionWithHash t tokenHash => proceed w (w.runs t)
      ((sessions (w.store.visible t)).find? fun row => row.sessionTokenHash = tokenHash) w.store
  | .markRevoked t id revokedAt =>
      match sessionOf (w.store.visible t) id with
      | none => (.error .database, w)
      | some row => proceed w (w.runs t && w.store.isFree t (.session id)) ()
          (w.store.write t (.session { row with revokedAt := some revokedAt }))

theorem exec_proceed {c : Command} {w : World} {b : Bool} {r : Reply c} {store : AccountStore}
    (h : b = true → Performs w c r (w.withStore store)) :
    Exec w c (proceed w b r store).1 (proceed w b r store).2 := by
  unfold proceed
  split
  · rename_i hb
    exact .inl ⟨r, rfl, h hb⟩
  · exact .inr ⟨rfl, rfl⟩

theorem exec_answer (w : World) (c : Command) : Exec w c (answer w c).1 (answer w c).2 := by
  cases c with
  | receive | draw => exact .inl ⟨_, rfl, rfl⟩
  | now | start => exact .inl ⟨_, rfl, rfl, rfl⟩
  | rollback t => exact .inl ⟨(), rfl, rfl⟩
  | commit t => exact exec_proceed fun hruns => ⟨hruns, rfl⟩
  | adminsLocked t => exact exec_proceed fun hruns => ⟨hruns, rfl⟩
  | userNamed | userWithId | enabledAdminCount | sessionWithHash =>
      exact exec_proceed fun hruns => ⟨hruns, rfl, rfl⟩
  | scanAdmins t =>
      refine exec_proceed fun hruns => ⟨hruns, rfl, fun id => ?_⟩
      simp only [List.mem_map, List.mem_filter, and_assoc]
  | scanSessions t r =>
      refine exec_proceed fun hruns => ⟨hruns, rfl, fun id => ?_⟩
      simp only [List.mem_map, List.mem_filter, and_assoc]
  | lockAdmin t id =>
      refine exec_proceed fun h => ?_
      rw [Bool.and_eq_true] at h
      exact ⟨h.1, h.2, rfl⟩
  | updateUser t id changes =>
      simp only [answer]
      split
      · exact .inr ⟨rfl, rfl⟩
      · rename_i row hrow
        refine exec_proceed fun h => ?_
        rw [Bool.and_eq_true] at h
        exact ⟨h.1, h.2, row, hrow, rfl⟩
  | insertUser t row =>
      refine exec_proceed fun h => ?_
      simp only [Bool.and_eq_true, Option.isNone_iff_eq_none, List.all_eq_true,
        decide_eq_true_eq] at h
      exact ⟨h.1.1.1.1, h.1.1.1.2, h.1.1.2, h.1.2, h.2, rfl⟩
  | revokeSession t r id =>
      simp only [answer]
      split
      · exact .inr ⟨rfl, rfl⟩
      · rename_i row hrow
        refine exec_proceed fun h => ?_
        rw [Bool.and_eq_true] at h
        exact ⟨h.1, h.2, row, hrow, rfl, rfl⟩
  | insertSession t row =>
      refine exec_proceed fun h => ?_
      simp only [Bool.and_eq_true, Option.isNone_iff_eq_none, List.all_eq_true,
        decide_eq_true_eq] at h
      exact ⟨h.1.1.1.1.1, h.1.1.1.1.2, h.1.1.1.2, h.1.1.2, h.1.2, h.2, rfl⟩
  | markRevoked t id revokedAt =>
      simp only [answer]
      split
      · exact .inr ⟨rfl, rfl⟩
      · rename_i row hrow
        refine exec_proceed fun h => ?_
        rw [Bool.and_eq_true] at h
        exact ⟨h.1, h.2, row, hrow, rfl⟩

end Gjallar.Accounts

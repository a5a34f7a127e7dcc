import Gjallar.PasswordReset

/-!
# Every run of the password calls

The invariants of the sessions and the hashes over every run whose steps are prudent, and two runs
that are not: a login adds its session after a reset, and a change of the password overwrites one.
-/
namespace Gjallar.PasswordReset

open Gjallar.Text Gjallar.Operation Gjallar.ReadCommitted Gjallar.Processes Gjallar.Accounts

structure Sealed (pw : Passwords) (w : World) (tr : Traces) : Prop where
  base : Base w tr
  issues : Issues w tr
  scans : Scans w tr
  final : Final w tr
  hashes : Hashes pw w tr

namespace Sealed

variable {pw : Passwords} {w w' : World} {tr : Traces}

theorem nil (hw : Quiescent w) : Sealed pw w [] := by
  have hnone : ∀ {t u}, w.store.txns t ≠ some u := by
    intro t u hu
    rw [hw t] at hu
    cases hu
  refine ⟨⟨⟨fun t u hu => absurd hu hnone, fun t t' u u' k hu => absurd hu hnone,
      fun t u r hu => absurd hu hnone⟩, Owned.nil hw, fun t u y hu => absurd hu hnone, ?_, ?_⟩,
    ⟨fun t u y hu => absurd hu hnone, ?_, fun k t x hx => hx.elim⟩, ⟨?_, ?_, ?_, ?_, ?_⟩,
    ⟨fun j t row hcloses => ?_, fun j t rv k u session h => h.earlier.elim,
      fun j t rv k u session h => h.earlier.elim⟩, fun t u v hu => absurd hu hnone⟩
  all_goals first | exact fun e he => absurd he List.not_mem_nil | skip
  exact fun h => h.elim

theorem step {i : ℕ} {c : Command} {r : Except AuthError (Reply c)} (h : Sealed pw w tr)
    (hallowed : Allowed pw (historyOf i tr) c) (hexec : Exec w c r w') (hP : Prudent w tr i c) :
    Sealed pw w' ((i, ⟨c, r⟩) :: tr) :=
  ⟨h.base.step hallowed hexec, h.issues.step h.base hallowed hexec,
    h.scans.step h.base h.issues hallowed hexec hP,
    h.final.step h.base h.issues h.scans hallowed hexec hP,
    h.hashes.step h.base hallowed hexec hP⟩

/-- Fewer transactions and a later clock. -/
theorem fewer (h : Sealed pw w tr) (hd : w'.store.Disciplined)
    (hrows : w'.store.rows = w.store.rows)
    (hnext : w'.store.next = w.store.next) (hclock : w.clock ≤ w'.clock)
    (htxns : ∀ t u, w'.store.txns t = some u → w.store.txns t = some u) : Sealed pw w' tr := by
  have hvisible : ∀ {t}, (w'.store.txns t).isSome = true →
      (w.store.txns t).isSome = true ∧ w'.store.visible t = w.store.visible t := by
    intro t ht
    obtain ⟨u, hu⟩ := Option.isSome_iff_exists.mp ht
    rw [Store.visible, Store.visible, hu, htxns t u hu, hrows]
    exact ⟨rfl, rfl⟩
  obtain ⟨hb, hi, hs, hf, hh⟩ := h
  refine ⟨⟨hd, hb.owned.mono hnext htxns, ?_, fun e he t ht => ?_,
      fun e he n hn => Int.le_trans (hb.clock e he n hn) hclock⟩,
    ⟨?_, fun e he t x hx ht => ?_, hrows ▸ hi.issued⟩,
    ⟨hs.once, fun e he t r ids hscanned => Int.le_trans (hs.timed e he t r ids hscanned) hclock,
      hs.spared, fun e he hcloses t r ids hscanned ht => ?_,
      fun e he t r id hrevoked hspared ht => ?_⟩,
    ⟨hf.loaded, hrows ▸ hf.settled, hf.accepted⟩, ?_⟩
  · exact fun t u y hu hy => hrows ▸ hb.ageing t u y (htxns t u hu) hy
  · by_contra hne
    obtain ⟨u, hu⟩ := Option.ne_none_iff_exists'.mp hne
    have hnone := hb.finished e he t ht
    rw [htxns t u hu] at hnone
    cases hnone
  · exact fun t u y hu hy => hrows ▸ hi.added t u y (htxns t u hu) hy
  · obtain ⟨hran, hsame⟩ := hvisible ht
    exact hsame ▸ hi.pending e he t x hx hran
  · obtain ⟨hran, hsame⟩ := hvisible ht
    exact hsame ▸ hs.selected e he hcloses t r ids hscanned hran
  · obtain ⟨hran, hsame⟩ := hvisible ht
    exact hsame ▸ hs.handled e he t r id hrevoked hspared hran
  · exact fun t u v hu hv => hrows ▸ hh t u v (htxns t u hu) hv

theorem environment (h : Sealed pw w tr) (henv : Environment w w') : Sealed pw w' tr := by
  cases henv with
  | time clock hle => exact h.fewer h.base.disciplined rfl rfl hle fun _ _ hu => hu
  | lost t =>
      refine h.fewer (h.base.disciplined.step .abort) rfl rfl (Int.le_refl _) fun t' u hu => ?_
      have hu' : (w.store.abort t).txns t' = some u := hu
      rw [Store.txns_abort] at hu'
      split at hu'
      · cases hu'
      · exact hu'

end Sealed

/-! ### Every run -/

section Runs

variable {pw : Passwords} {tokens : Tokens}

abbrev passwordSystem (pw : Passwords) (tokens : Tokens) :
    System Command (fun c => Except AuthError (Reply c)) Outcome World := system (Entry pw tokens)

/-- Runs of calls that begin while no transaction is running, and whose steps meet a condition. -/
def Runs (pw : Passwords) (tokens : Tokens) (P : World → Traces → ℕ → Command → Prop)
    (s : AccountState) : Prop :=
  ∃ w, Quiescent w ∧ Relation.ReflTransGen ((passwordSystem pw tokens).StepWhere P) ⟨w, [], []⟩ s

theorem sealed_of_runs {s : AccountState} (h : Runs pw tokens Prudent s) :
    Sealed pw s.world s.trace := by
  obtain ⟨w, hw, hrun⟩ := h
  exact System.invariant_where (D := contract pw) (P := Prudent) (I := Sealed pw)
    (fun _ hp => entry_follows hp)
    (fun _ hw => Sealed.nil hw) (fun _ _ _ _ _ _ h hallowed hexec hP => h.step hallowed hexec hP)
    (fun _ _ _ h henv => h.environment henv) hw hrun

theorem reachable_of_runs {P : World → Traces → ℕ → Command → Prop} {s : AccountState}
    (h : Runs pw tokens P s) : (passwordSystem pw tokens).Reachable Quiescent s := by
  obtain ⟨w, hw, hrun⟩ := h
  exact (System.Reachable.start hw).steps (System.steps_of_where hrun)

theorem not_acceptsEarlier {s : AccountState} (h : Runs pw tokens Prudent s) :
    ¬ AcceptsEarlier s := by
  rintro ⟨j, t, userId, k, u, i, now, session, actor, ⟨hcloses, row, rfl, hloaded⟩, hearlier,
    hissued, huser, hend, hread, e, he, rfl, x, hfound, hid⟩
  have hsealed := sealed_of_runs h
  obtain ⟨f, hf, hprocess, rv, ids, hscanned, hrow⟩ := hsealed.final.loaded j t row hcloses hloaded
  have hstale : Stale s.trace j t rv k u session :=
    ⟨hcloses, ⟨f, hf, hprocess, ids, hscanned⟩, hearlier, hissued, huser.trans hrow⟩
  obtain ⟨hle, hall⟩ := hsealed.final.accepted j t rv k u session hstale e.1 now hread
  have hends := Contract.ends_of_reachable (D := contract pw) (fun _ hp => entry_follows hp)
    (reachable_of_runs h) hend
  obtain ⟨⟨_, g⟩, hg, rfl, hclock⟩ := hread.right
  have hvalid := hends actor rfl e.2 (mem_historyOf.mpr he) g (mem_historyOf.mpr hg) x hfound now
    hclock
  rcases hall e he rfl x hfound hid with hrevoked | hexpired
  · exact hrevoked hvalid.1
  · exact absurd (Int.le_trans hexpired hle) (Int.not_le.mpr hvalid.2)

theorem historyOf_mono {tr tr' : Traces} (h : tr <:+ tr') (j : ℕ) :
    historyOf j tr ⊆ historyOf j tr' :=
  fun _ hf => mem_historyOf.mpr (h.subset (mem_historyOf.mp hf))

/-- One step keeps the hash of a user, or it is the commit of a process that may replace it. -/
theorem kept_of_step {s s' : AccountState} (h : Runs pw tokens Prudent s)
    (hs : (passwordSystem pw tokens).StepWhere Prudent s s') {id : Str} {row : UserRecord}
    (hrow : userOf s.world.store.rows id = some row) :
    (∃ row', userOf s'.world.store.rows id = some row' ∧ row'.passwordHash = row.passwordHash) ∨
      ∃ e, s'.trace = e :: s.trace ∧ (committed e.2).isSome = true ∧
        Authorises pw (historyOf e.1 s.trace) id row.passwordHash := by
  have hsealed := sealed_of_runs h
  obtain ⟨hstep, -⟩ := hs
  cases hstep with
  | start | crash => exact .inl ⟨row, hrow, rfl⟩
  | environment henv =>
      cases henv with
      | time | lost => exact .inl ⟨row, hrow, rfl⟩
  | call i c k r hi hexec =>
      have hallowed := Contract.allowed_of_reachable (D := contract pw)
        (fun _ hp => entry_follows hp) (reachable_of_runs h) hi
      refine (hsealed.hashes.kept hsealed.base hallowed hexec hrow).imp_right ?_
      rintro ⟨hcommitted, hauthorises⟩
      exact ⟨(i, ⟨c, r⟩), rfl, hcommitted, hauthorises⟩

theorem hashStays {s s' : AccountState} (h : Runs pw tokens Prudent s)
    (hrun : Relation.ReflTransGen ((passwordSystem pw tokens).StepWhere Prudent) s s') :
    HashStays pw s s' := by
  induction hrun with
  | refl => exact fun id row hrow => .inl ⟨row, hrow, rfl⟩
  | @tail s₁ s₂ hrest hs ih =>
      intro id row hrow
      obtain ⟨new, hnew⟩ := System.trace_suffix (System.steps_of_where hrest)
      have hsuffix : s₁.trace <:+ s₂.trace := System.trace_suffix (.single hs.1)
      rcases ih id row hrow with ⟨row₁, hrow₁, hsame⟩ |
        ⟨new₁, hnew₁, e, he, hcommitted, hauthorises⟩
      · obtain ⟨w, hw, hstart⟩ := h
        have h₁ : Runs pw tokens Prudent s₁ := ⟨w, hw, hstart.trans hrest⟩
        rcases kept_of_step h₁ hs hrow₁ with ⟨row₂, hrow₂, hsame₂⟩ | ⟨e, htrace, hcommitted, ha⟩
        · exact .inl ⟨row₂, hrow₂, hsame₂.trans hsame⟩
        · refine .inr ⟨e :: new, by rw [htrace, ← hnew]; rfl, e, List.mem_cons_self, hcommitted, ?_⟩
          exact hsame ▸ ha.mono (historyOf_mono hsuffix e.1)
      · obtain ⟨new₂, hnew₂⟩ := hsuffix
        refine .inr ⟨new₂ ++ new₁, ?_, e, List.mem_append_right _ he, hcommitted, ?_⟩
        · rw [← hnew₂, hnew₁, List.append_assoc]
        · exact hauthorises.mono (historyOf_mono ⟨new₂, hnew₂⟩ e.1)

/-- As long as every step is prudent, no session of an earlier login is accepted after a reset or
after the disabling of the user, and the hash stays until a reset or a change that has verified
it. -/
theorem password_reset_is_final {s s' : AccountState} (h : Runs pw tokens Prudent s)
    (hrun : Relation.ReflTransGen ((passwordSystem pw tokens).StepWhere Prudent) s s') :
    ¬ AcceptsEarlier s' ∧ HashStays pw s s' := by
  obtain ⟨w, hw, hstart⟩ := h
  exact ⟨not_acceptsEarlier ⟨w, hw, hstart.trans hrun⟩, hashStays ⟨w, hw, hstart⟩ hrun⟩

end Runs

/-! ### Scenes -/

section Scenes

instance (tr : Traces) (j : ℕ) : Decidable (Closes tr j) :=
  inferInstanceAs (Decidable (∃ e ∈ tr, e.1 = j ∧ (asked e.2).any closes = true))

instance (w : World) (tr : Traces) (i : ℕ) (userId : Str) : Decidable (Unswept w tr i userId) :=
  inferInstanceAs (Decidable (∀ e ∈ tr, Closes tr e.1 → ∀ r ∈ scanned e.2,
    r.2.1.userId = userId → w.runs r.1 = false ∧ ¬ Before (Loads i) (Commits e.1 r.1) tr))

instance (w : World) (tr : Traces) (i : ℕ) : DecidablePred (Prudent w tr i)
  | .commit t => inferInstanceAs (Decidable (∀ e ∈ tr, e.1 = i → ∀ x ∈ inserted e.2,
      x.1 = t → Unswept w tr i x.2.userId))
  | .updateUser _ id changes => inferInstanceAs (Decidable (changes.passwordHash.isSome = true →
      ∀ e ∈ tr, e.1 = i → ∀ v ∈ loadedById e.2,
        ((userOf w.store.rows id).any fun row => row.passwordHash = v.passwordHash) = true))
  | .receive _ | .now | .draw | .start | .rollback _ | .scanAdmins _ | .lockAdmin ..
  | .adminsLocked _ | .userNamed .. | .userWithId .. | .enabledAdminCount _ | .insertUser ..
  | .scanSessions .. | .revokeSession .. | .insertSession .. | .sessionWithHash ..
  | .markRevoked .. => isTrue trivial

/-- The hash of a password is the password. -/
def plainPasswords : Passwords :=
  ⟨fun _ password => .ok password, fun password hash => password = hash⟩

def sampleTokens : Tokens := ⟨id, 3600⟩

def sampleUser : UserRecord :=
  ⟨"1", "u", "old", .viewer, true, Instant.seconds 0, Instant.seconds 0, none⟩

def sampleWorld : World :=
  ⟨⟨⟨[.user sampleUser], by decide⟩, fun _ => none, 0⟩, Instant.seconds 1⟩

/-- A login, a reset, a call with the token of the login, and a change of the password. -/
def sampleCalls : AccountState :=
  ⟨sampleWorld, [asProcess .issued (login plainPasswords sampleTokens "u" "old"),
    asProcess .operation (resetPassword plainPasswords "u" "new"),
    asProcess .actor (actorForSessionToken sampleTokens "0"),
    asProcess .operation
      (changeOwnPassword plainPasswords ⟨"1", "u", .viewer⟩ "old" "mine" none)], []⟩

theorem runs_sampleCalls (P : World → Traces → ℕ → Command → Prop) :
    Runs plainPasswords sampleTokens P sampleCalls := by
  refine ⟨sampleWorld, fun _ => rfl, System.stepsWhere_programs _ _ fun p hp => ?_⟩
  simp only [List.mem_cons, List.not_mem_nil, or_false] at hp
  rcases hp with rfl | rfl | rfl | rfl
  · exact .login _ _
  · exact .resetPassword _ _
  · exact .actorForSessionToken _
  · exact .changeOwnPassword _ _ _ _

/-- The login is over when the password is reset, and its token is rejected. -/
theorem password_reset_is_final_after_login :
    let s := System.playAllWhere answer Prudent [(0, 12), (1, 9), (2, 5)] sampleCalls
    s.trace.length = 26 ∧ (s.programs[0]?).any Program.isDone = true ∧
      (userOf s.world.store.rows "1").map UserRecord.passwordHash = some "new" ∧
      (s.programs[2]?).bind Program.result = some (.ok (.actor none)) ∧
      ¬ AcceptsEarlier s ∧ HashStays plainPasswords sampleCalls s := by
  refine ⟨by decide, by decide, by decide, by decide, ?_⟩
  exact password_reset_is_final (runs_sampleCalls Prudent)
    (System.steps_playAllWhere exec_answer [(0, 12), (1, 9), (2, 5)] sampleCalls)

/-- The reset revokes before the login adds its session. -/
def lateLogin : AccountState :=
  System.playAllWhere answer (fun _ _ _ _ => True) [(0, 6), (1, 8), (0, 6), (2, 6)] sampleCalls

theorem acceptsEarlier_lateLogin : AcceptsEarlier lateLogin := by
  have hloaded : Closes lateLogin.trace 1 ∧
      Before (LoadsRow 1 { sampleUser with
        lastLoginAt := some (Instant.seconds 1), updatedAt := Instant.seconds 1 })
        (Commits 1 1) lateLogin.trace := by decide
  have hearlier : Before (Loads 0) (Commits 1 1) lateLogin.trace := by decide
  have hissued : Before (Inserts 0 2 ⟨"sess_0", "1", "0", Instant.seconds 3601,
      Instant.seconds 1, none⟩) (Commits 0 2) lateLogin.trace := by decide
  have hend : (lateLogin.programs[2]?).bind Program.result =
      some (.ok (.actor (some ⟨"1", "u", .viewer⟩))) := by decide
  have hread : Before (Commits 1 1) (Reads 2 (Instant.seconds 1)) lateLogin.trace := by
    decide
  have hfound : ∃ e ∈ lateLogin.trace, e.1 = 2 ∧ ∃ row ∈ found e.2, row.sessionId = "sess_0" := by
    decide
  exact ⟨1, 1, "1", 0, 2, 2, _, _, _, ⟨hloaded.1, _, rfl, hloaded.2⟩, hearlier, hissued, rfl,
    Program.eq_done_of_result hend, hread, hfound⟩

/-- The change verifies the old hash before the reset, and has issued `n` statements since. -/
def lateChange (n : ℕ) : AccountState :=
  System.playAllWhere answer (fun _ _ _ _ => True) [(3, 5), (1, 8), (3, n)] sampleCalls

/-- May a call that was asked this replace the hash? -/
def mayReplace (pw : Passwords) (passwordHash : Str) (e : AccountEvent) : Bool :=
  match asked e with
  | some (.resetPassword ..) => true
  | some (.changeOwnPassword _ current _ _) => pw.verify current passwordHash
  | _ => false

theorem exists_mayReplace {pw : Passwords} {h : Past} {id passwordHash : Str}
    (ha : Authorises pw h id passwordHash) : ∃ e ∈ h, mayReplace pw passwordHash e = true := by
  rcases ha with ⟨e, he, -, -, ⟨username, password, hasked⟩, -⟩ |
    ⟨e, he, -, -, actor, current, new, sessionId, hasked, hverify, -⟩
  · exact ⟨e, he, by rw [mayReplace, hasked]⟩
  · exact ⟨e, he, by rw [mayReplace, hasked]; exact hverify⟩

theorem not_hashStays_lateChange : ¬ HashStays plainPasswords (lateChange 0) (lateChange 3) := by
  intro h
  obtain ⟨row, hrow, hnew⟩ : ∃ row, userOf (lateChange 0).world.store.rows "1" = some row ∧
      row.passwordHash = "new" :=
    ⟨{ sampleUser with passwordHash := "new", updatedAt := Instant.seconds 1 },
      by decide, rfl⟩
  have hlast : (userOf (lateChange 3).world.store.rows "1").map UserRecord.passwordHash =
      some "mine" := by decide
  have hlength : (lateChange 3).trace.length = 3 + (lateChange 0).trace.length := by decide
  have hnone : ∀ e ∈ (lateChange 3).trace.take 3, ∀ f ∈ historyOf e.1 (lateChange 3).trace,
      mayReplace plainPasswords "new" f = false := by decide
  rcases h "1" row hrow with ⟨row', hrow', hsame⟩ | ⟨new, htrace, e, he, -, hauthorises⟩
  · rw [hrow', Option.map_some, hsame, hnew] at hlast
    cases hlast
  · rw [htrace, List.length_append, Nat.add_right_cancel_iff] at hlength
    rw [htrace, List.take_left' hlength, ← htrace] at hnone
    obtain ⟨f, hf, hmay⟩ := exists_mayReplace hauthorises
    rw [hnew, hnone e he f hf] at hmay
    cases hmay

/-- A login that has verified the old password gives a session that is accepted after the reset, and
a change that has verified it overwrites the reset. -/
theorem password_reset_is_not_final :
    (¬ ∀ pw tokens s, Runs pw tokens (fun _ _ _ _ => True) s → ¬ AcceptsEarlier s) ∧
      ¬ ∀ pw tokens s s', Runs pw tokens (fun _ _ _ _ => True) s →
        Relation.ReflTransGen ((passwordSystem pw tokens).StepWhere fun _ _ _ _ => True) s s' →
        HashStays pw s s' := by
  have hruns := runs_sampleCalls fun _ _ _ _ => True
  obtain ⟨w, hw, hstart⟩ := hruns
  refine ⟨fun h => h plainPasswords sampleTokens lateLogin ⟨w, hw, hstart.trans
    (System.steps_playAllWhere exec_answer _ _)⟩ acceptsEarlier_lateLogin, fun h => ?_⟩
  refine not_hashStays_lateChange (h plainPasswords sampleTokens (lateChange 0) (lateChange 3)
    ⟨w, hw, hstart.trans (System.steps_playAllWhere exec_answer _ _)⟩ ?_)
  exact System.steps_playWhere (S := passwordSystem plainPasswords sampleTokens) (i := 3)
    exec_answer 3 (lateChange 0)

end Scenes

end Gjallar.PasswordReset

import Gjallar.PasswordCalls
import Gjallar.SessionRows

/-!
# A password reset is final

A login verifies a password in one transaction and adds its session in another, and a change of the
password verifies the old one before it waits for the row. As long as no session is added that a
revocation has missed, and no changed password is written over another than the verified one, no
session of an earlier password is accepted after a reset and the reset password stays.
-/
namespace Gjallar.PasswordReset

open Gjallar.Text Gjallar.Operation Gjallar.ReadCommitted Gjallar.Processes Gjallar.Accounts

/-! ### What has happened -/

/-- Process `j` resets a password or disables a user. -/
def Closes (tr : Traces) (j : ℕ) : Prop := ∃ e ∈ tr, e.1 = j ∧ (asked e.2).any closes = true

/-- Process `k` has loaded a user by name. -/
def Loads (k : ℕ) (e : ℕ × AccountEvent) : Prop := e.1 = k ∧ (loaded e.2).isSome = true

def LoadsRow (k : ℕ) (row : UserRecord) (e : ℕ × AccountEvent) : Prop :=
  e.1 = k ∧ loaded e.2 = some row

def Commits (j t : ℕ) (e : ℕ × AccountEvent) : Prop := e.1 = j ∧ committed e.2 = some t

def Inserts (k t : ℕ) (session : SessionRecord) (e : ℕ × AccountEvent) : Prop :=
  e.1 = k ∧ inserted e.2 = some (t, session)

def Reads (i : ℕ) (now : Instant) (e : ℕ × AccountEvent) : Prop :=
  e.1 = i ∧ readClock e.2 = some now

section Decidable

variable (i t : ℕ)

instance : DecidablePred (Loads i) := fun _ => inferInstanceAs (Decidable (_ ∧ _))

instance (row : UserRecord) : DecidablePred (LoadsRow i row) :=
  fun _ => inferInstanceAs (Decidable (_ ∧ _))

instance : DecidablePred (Commits i t) := fun _ => inferInstanceAs (Decidable (_ ∧ _))

instance (session : SessionRecord) : DecidablePred (Inserts i t session) :=
  fun _ => inferInstanceAs (Decidable (_ ∧ _))

instance (now : Instant) : DecidablePred (Reads i now) :=
  fun _ => inferInstanceAs (Decidable (_ ∧ _))

end Decidable

/-- Process `k` has issued the session. -/
def Issued (tr : Traces) (k t : ℕ) (session : SessionRecord) : Prop :=
  Before (Inserts k t session) (Commits k t) tr

/-- Process `j` has reset the password of a user or disabled it, in transaction `t`. -/
def Ended (tr : Traces) (j t : ℕ) (userId : Str) : Prop :=
  Closes tr j ∧ ∃ row, row.userId = userId ∧ Before (LoadsRow j row) (Commits j t) tr

/-- A call that read the clock after the end has accepted a session of an earlier login. -/
def AcceptsEarlier (s : AccountState) : Prop :=
  ∃ j t userId k u i now session actor, Ended s.trace j t userId ∧
    Before (Loads k) (Commits j t) s.trace ∧ Issued s.trace k u session ∧
    session.userId = userId ∧ s.programs[i]? = some (.done (.ok (.actor (some actor)))) ∧
    Before (Commits j t) (Reads i now) s.trace ∧
    ∃ e ∈ s.trace, e.1 = i ∧ ∃ row ∈ found e.2, row.sessionId = session.sessionId

/-- The hash of a user stays until a reset, or a change that has verified it. -/
def HashStays (pw : Passwords) (s s' : AccountState) : Prop :=
  ∀ id row, userOf s.world.store.rows id = some row →
    (∃ row', userOf s'.world.store.rows id = some row' ∧ row'.passwordHash = row.passwordHash) ∨
    ∃ new, s'.trace = new ++ s.trace ∧ ∃ e ∈ new, (committed e.2).isSome = true ∧
      Authorises pw (historyOf e.1 s'.trace) id row.passwordHash

/-! ### The condition -/

/-- No reset and no disabling of the user has selected the sessions to revoke, unless it has ended
without a commit since process `i` loaded the user. -/
def Unswept (w : World) (tr : Traces) (i : ℕ) (userId : Str) : Prop :=
  ∀ e ∈ tr, Closes tr e.1 → ∀ r ∈ scanned e.2, r.2.1.userId = userId →
    w.runs r.1 = false ∧ ¬ Before (Loads i) (Commits e.1 r.1) tr

/-- A session is added only as long as its user is unswept, and a changed password is written only
over the one that was verified. -/
def Prudent (w : World) (tr : Traces) (i : ℕ) : Command → Prop
  | .commit t => ∀ e ∈ tr, e.1 = i → ∀ x ∈ inserted e.2, x.1 = t → Unswept w tr i x.2.userId
  | .updateUser _ id changes => changes.passwordHash.isSome = true →
      ∀ e ∈ tr, e.1 = i → ∀ v ∈ loadedById e.2,
        ((userOf w.store.rows id).any fun row => row.passwordHash = v.passwordHash) = true
  | _ => True

/-! ### Transactions and the clock -/

structure Base (w : World) (tr : Traces) : Prop where
  disciplined : w.store.Disciplined
  owned : Owned w.store tr
  ageing : Ageing w.store
  finished : ∀ e ∈ tr, ∀ t, committed e.2 = some t → w.store.txns t = none
  clock : ∀ e ∈ tr, ∀ n, readClock e.2 = some n → n ≤ w.clock

section Step

variable {pw : Passwords} {w w' : World} {tr : Traces} {i : ℕ} {c : Command}
  {r : Except AuthError (Reply c)}

theorem Base.step (h : Base w tr) (hallowed : Allowed pw (historyOf i tr) c)
    (hexec : Exec w c r w') : Base w' ((i, ⟨c, r⟩) :: tr) := by
  have heffect := hexec.effect
  refine ⟨heffect.store_step.elim (fun hsame => hsame ▸ h.disciplined) h.disciplined.step,
    h.owned.call hallowed.1 heffect, (heffect.ages h.disciplined h.ageing).ageing,
    List.forall_mem_cons.mpr ⟨fun t ht => ?_, fun e he t ht => ?_⟩,
    List.forall_mem_cons.mpr ⟨fun n hn => ?_, fun e he n hn => hexec.clock ▸ h.clock e he n hn⟩⟩
  · cases eq_of_committed ht
    rcases hexec with ⟨a, -, -, rfl⟩ | ⟨hr, -⟩
    · exact (Store.txns_commit w.store t t).trans (if_pos rfl)
    · cases hr
  · have htxn : e.2.command.txn = some t := by rw [eq_of_committed ht]; rfl
    exact heffect.ended (h.finished e he t ht) (h.owned.started _ t (h.owned.owned _ _ t he htxn))
  · cases eq_of_readClock hn
    rcases hexec with ⟨a, hr, ha, rfl⟩ | ⟨hr, -⟩
    · cases hr
      exact Int.le_of_eq ha
    · cases hr

/-- A transaction that is committed was running. -/
theorem Base.not_committed (h : Base w tr) {t : ℕ} (ht : w.runs t = true) {e : ℕ × AccountEvent}
    (he : e ∈ tr) : committed e.2 ≠ some t := by
  intro hc
  rw [World.runs, h.finished e he t hc] at ht
  cases ht

/-- The process that issues a statement of a transaction has issued all of them. -/
theorem Base.same_process (h : Base w tr) (hallowed : Allowed pw (historyOf i tr) c) {t : ℕ}
    (hc : c.txn = some t) {e : ℕ × AccountEvent} (he : e ∈ tr) (htxn : e.2.command.txn = some t) :
    e.1 = i :=
  h.owned.single e.1 i t (h.owned.owned _ _ t he htxn) (mem_historyOf.mp (hallowed.1 t hc))

/-! ### Sessions that were issued -/

structure Issues (w : World) (tr : Traces) : Prop where
  added : ∀ t u y, w.store.txns t = some u → .session y ∈ u.writes →
    sessionOf w.store.rows y.sessionId = none →
    ∃ e ∈ tr, ∃ x, inserted e.2 = some (t, x) ∧ x.userId = y.userId
  pending : ∀ e ∈ tr, ∀ t x, inserted e.2 = some (t, x) → (w.store.txns t).isSome = true →
    ∃ y, sessionOf (w.store.visible t) x.sessionId = some y ∧ y.userId = x.userId
  issued : ∀ k t x, Issued tr k t x →
    ∃ y, sessionOf w.store.rows x.sessionId = some y ∧ y.userId = x.userId

/-- Transactions that run after a step ran before it, or have just begun. -/
theorem isSome_of_effect {s s' : AccountStore} (h : Effect s c r s') {t : ℕ} (hlt : t < s.next)
    (ht : (s'.txns t).isSome = true) : (s.txns t).isSome = true := by
  by_contra hnone
  rw [Option.not_isSome_iff_eq_none] at hnone
  rw [h.ended hnone hlt] at ht
  cases ht

theorem Issues.added_step (h : Issues w tr) (hb : Base w tr) (hexec : Exec w c r w') :
    ∀ t u y, w'.store.txns t = some u → .session y ∈ u.writes →
      sessionOf w'.store.rows y.sessionId = none →
      ∃ e ∈ (i, ⟨c, r⟩) :: tr, ∃ x, inserted e.2 = some (t, x) ∧ x.userId = y.userId := by
  intro t u y hu hy hnone
  have hold : ∀ u, w.store.txns t = some u → .session y ∈ u.writes →
      sessionOf w.store.rows y.sessionId = none →
      ∃ e ∈ (i, (⟨c, r⟩ : AccountEvent)) :: tr, ∃ x, inserted e.2 = some (t, x) ∧
        x.userId = y.userId := by
    intro u hu hy hnone
    obtain ⟨e, he, hx⟩ := h.added t u y hu hy hnone
    exact ⟨e, List.mem_cons_of_mem _ he, hx⟩
  have heffect := hexec.effect
  generalize w'.store = s' at heffect hu hnone
  cases heffect with
  | nothing => exact hold u hu hy hnone
  | start =>
      rw [Store.txns_start] at hu
      split at hu
      · cases hu
        cases hy
      · exact hold u hu hy hnone
  | rollback =>
      rw [Store.txns_abort] at hu
      split at hu
      · cases hu
      · exact hold u hu hy hnone
  | @commit t' =>
      rw [Store.txns_commit] at hu
      split at hu
      · cases hu
      · rename_i hne
        have hlock := hb.disciplined.locked t u (.session y) hu hy
        have hsame := Store.get_commit_of_locked hb.disciplined hu hlock hne
        refine hold u hu hy ?_
        rw [sessionOf] at hnone ⊢
        exact hsame ▸ hnone
  | @grab c a t' k versions htxn hfree hkey hwrites =>
      rw [Store.rows_grab] at hnone
      rw [Store.txns_grab] at hu
      split at hu
      · rename_i heq
        subst heq
        obtain ⟨u₀, hu₀, rfl⟩ := Option.map_eq_some_iff.mp hu
        -- another version of a session the transaction has added
        have hseen : ∀ z, sessionOf (w.store.visible t) y.sessionId = some z →
            z.userId = y.userId →
            ∃ e ∈ (i, (⟨c, .ok a⟩ : AccountEvent)) :: tr, ∃ x, inserted e.2 = some (t, x) ∧
              x.userId = y.userId := by
          intro z hz huser
          rcases sessionOf_visible hu₀ hz with ⟨hz, hid⟩ | ⟨-, hz⟩
          · obtain ⟨e, he, x, hx, hxuser⟩ := h.added t u₀ z hu₀ hz (hid ▸ hnone)
            exact ⟨e, List.mem_cons_of_mem _ he, x, hx, hxuser.trans huser⟩
          · rw [hnone] at hz
            cases hz
        rcases List.mem_append.mp hy with hy | hy
        · rcases session_of_writes (hwrites _ hy) with ⟨z, hz, hlater, -⟩ | ⟨rfl, -⟩
          · exact hseen z hz hlater.user.symm
          · exact ⟨_, List.mem_cons_self, y, rfl, rfl⟩
        · exact hold u₀ hu₀ hy hnone
      · exact hold u hu hy hnone

theorem Issues.step (h : Issues w tr) (hb : Base w tr) (hallowed : Allowed pw (historyOf i tr) c)
    (hexec : Exec w c r w') : Issues w' ((i, ⟨c, r⟩) :: tr) := by
  have hages := hexec.effect.ages hb.disciplined hb.ageing
  refine ⟨h.added_step hb hexec, List.forall_mem_cons.mpr ⟨fun t x hx ht => ?_,
    fun e he t x hx ht => ?_⟩, fun k t x hx => ?_⟩
  · cases eq_of_inserted hx
    rcases hexec with ⟨a, -, hruns, -, -, -, -, -, rfl⟩ | ⟨hr, -⟩
    · obtain ⟨u, hu⟩ := Option.isSome_iff_exists.mp hruns
      refine ⟨x, ?_, rfl⟩
      have hwritten : w.withStore (w.store.write t (.session x)) =
          w.withStore (w.store.grab t (.session x.sessionId) [.session x]) := rfl
      rw [hwritten, sessionOf_eq_some]
      refine (get_visible_grab hu _).trans ?_
      rw [List.find?_cons_of_pos (by simp [Row.key]), Option.some_or]
    · cases hr
  · have htxn : e.2.command.txn = some t := by rw [eq_of_inserted hx]; rfl
    have hlt := hb.owned.started _ t (hb.owned.owned _ _ t he htxn)
    have hran := isSome_of_effect hexec.effect hlt ht
    obtain ⟨y, hy, huser⟩ := h.pending e he t x hx hran
    obtain ⟨z, hz, hlater⟩ := hages.visible t hran ht _ y hy
    exact ⟨z, hz, hlater.user.trans huser⟩
  · rcases hx with ⟨⟨-, hc⟩, e, he, -, hx⟩ | hx
    · cases eq_of_committed hc
      rcases hexec with ⟨a, -, hruns, rfl⟩ | ⟨hr, -⟩
      · exact h.pending e he t x hx hruns
      · cases hr
    · obtain ⟨y, hy, huser⟩ := h.issued k t x hx
      obtain ⟨z, hz, hlater⟩ := hages.rows _ y hy
      exact ⟨z, hz, hlater.user.trans huser⟩

/-- Where a session that a running transaction sees after a step comes from. -/
theorem Issues.visible_back (h : Issues w tr) (hb : Base w tr) (hexec : Exec w c r w') {t : ℕ}
    {id : Str} {x : SessionRecord} (ht : (w.store.txns t).isSome = true)
    (ht' : (w'.store.txns t).isSome = true)
    (hx : sessionOf (w'.store.visible t) id = some x) :
    (∃ z, sessionOf (w.store.visible t) id = some z ∧ Later z x) ∨ c = .insertSession t x ∨
      ∃ t', c = .commit t' ∧ w.runs t' = true ∧
        ∃ e ∈ tr, ∃ y, inserted e.2 = some (t', y) ∧ y.userId = x.userId := by
  obtain ⟨u, hu⟩ := Option.isSome_iff_exists.mp ht
  have heffect := hexec.effect
  generalize w'.store = s' at heffect hx ht'
  cases heffect with
  | nothing => exact .inl ⟨x, hx, .refl x⟩
  | start =>
      refine .inl ⟨x, ?_, .refl x⟩
      have hne : t ≠ w.store.next := Nat.ne_of_lt (hb.disciplined.numbered t u hu)
      rwa [Store.visible, Store.txns_start, if_neg hne] at hx
  | @rollback t' =>
      refine .inl ⟨x, ?_, .refl x⟩
      rw [Store.txns_abort] at ht'
      split at ht'
      · cases ht'
      · rename_i hne
        rwa [Store.visible, Store.txns_abort, if_neg hne] at hx
  | @grab c a t' k versions htxn hfree hkey hwrites =>
      by_cases hne : t = t'
      · subst hne
        cases hfound : versions.find? fun r => r.key = .session id with
        | none =>
            refine .inl ⟨x, ?_, .refl x⟩
            rwa [sessionOf, get_visible_grab hu, hfound, Option.none_or] at hx
        | some v =>
            rw [sessionOf_eq_some, get_visible_grab hu, hfound, Option.some_or] at hx
            cases hx
            have hv := hwrites _ (List.mem_of_find?_eq_some hfound)
            have hkey : (Row.session x).key = .session id := by simpa using List.find?_some hfound
            have hid : x.sessionId = id := Key.session.inj hkey
            rcases session_of_writes hv with ⟨z, hz, hlater, -⟩ | ⟨hc, -⟩
            · exact .inl ⟨z, hid ▸ hz, hlater⟩
            · exact .inr (.inl hc)
      · rw [visible_grab_of_ne hne] at hx
        exact .inl ⟨x, hx, .refl x⟩
  | @commit t' =>
      rw [Store.txns_commit] at ht'
      split at ht'
      · cases ht'
      · rename_i hne
        have hu' : (w.store.commit t').txns t = some u := by
          rw [Store.txns_commit, if_neg hne, hu]
        have hseen : ∀ z, sessionOf w.store.rows id = some z → Later z x →
            (u.writes.find? fun r => r.key = .session id) = none →
            ∃ z, sessionOf (w.store.visible t) id = some z ∧ Later z x := by
          intro z hz hlater hnone
          exact ⟨z, by rwa [sessionOf_visible_of_none hu hnone], hlater⟩
        cases hfound : u.writes.find? fun r => r.key = .session id with
        | some v =>
            refine .inl ⟨x, ?_, .refl x⟩
            rw [sessionOf, get_visible hu', hfound, Option.some_or] at hx
            rw [sessionOf, get_visible hu, hfound, Option.some_or]
            exact hx
        | none =>
            rw [sessionOf_visible_of_none hu' hfound] at hx
            have hrows : sessionOf (w.store.visible t') id = some x := hx
            cases htxn : w.store.txns t' with
            | none =>
                rw [visible_of_none htxn] at hrows
                exact .inl (hseen x hrows (.refl x) hfound)
            | some v =>
                rcases sessionOf_visible htxn hrows with ⟨hwritten, hid⟩ | ⟨-, hrows⟩
                · cases hold : sessionOf w.store.rows id with
                  | some z =>
                      have hlater := hb.ageing t' v x htxn hwritten z (hid ▸ hold)
                      exact .inl (hseen z hold hlater hfound)
                  | none =>
                      obtain ⟨e, he, y, hy⟩ := h.added t' v x htxn hwritten (hid ▸ hold)
                      refine .inr (.inr ⟨t', rfl, ?_, e, he, y, hy⟩)
                      rw [World.runs, htxn]
                      rfl
                · exact .inl (hseen x hrows (.refl x) hfound)

/-! ### Sessions that are revoked -/

/-- The session is revoked, or had expired at the time of the revocation. -/
def Settled (r : Revocation) (x : SessionRecord) : Prop :=
  x.revokedAt ≠ none ∨ x.expiresAt ≤ r.revokedAt

theorem Settled.later {r : Revocation} {x y : SessionRecord} (h : Settled r x) (hl : Later x y) :
    Settled r y := by
  rcases h with h | h
  · exact .inl (hl.revoked h)
  · exact .inr (hl.expiry ▸ h)

theorem settled_of_not_selects {r : Revocation} {x : SessionRecord} (hr : r.spared = none)
    (huser : x.userId = r.userId) (h : ¬ r.selects x = true) : Settled r x := by
  simp only [Revocation.selects, hr, Option.all_none, huser, decide_true, Bool.true_and,
    Bool.and_true, Bool.and_eq_true, Option.isNone_iff_eq_none, decide_eq_true_eq] at h
  by_contra hsettled
  rw [Settled, not_or, not_not, Int.not_le] at hsettled
  exact h hsettled

theorem closes_iff {j : ℕ} : Closes tr j ↔ Closing (historyOf j tr) := by
  constructor
  · rintro ⟨⟨_, e⟩, he, rfl, hasked⟩
    exact ⟨e, mem_historyOf.mpr he, hasked⟩
  · rintro ⟨e, he, hasked⟩
    exact ⟨(j, e), mem_historyOf.mp he, rfl, hasked⟩

/-- A process is asked before it does anything else. -/
theorem closes_of_cons (hallowed : Allowed pw (historyOf i tr) c) {e : ℕ × AccountEvent}
    (he : e ∈ tr) (h : Closes ((i, ⟨c, r⟩) :: tr) e.1) : Closes tr e.1 := by
  obtain ⟨f, hf, hprocess, hasked⟩ := h
  rcases List.mem_cons.mp hf with rfl | hf
  · obtain ⟨request, hrequest, -⟩ := (Option.any_eq_true _ _).mp hasked
    cases eq_of_asked hrequest
    have hnil : historyOf i tr = [] := hallowed.2
    obtain ⟨j, e⟩ := e
    cases hprocess
    have hmem : e ∈ historyOf i tr := mem_historyOf.mpr he
    rw [hnil] at hmem
    cases hmem
  · exact ⟨f, hf, hprocess, hasked⟩

structure Scans (w : World) (tr : Traces) : Prop where
  once : ∀ e ∈ tr, ∀ f ∈ tr, e.1 = f.1 → ∀ a, scanned e.2 = some a → ∀ b, scanned f.2 = some b →
    a = b
  timed : ∀ e ∈ tr, ∀ t r ids, scanned e.2 = some (t, r, ids) → r.revokedAt ≤ w.clock
  spared : ∀ e ∈ tr, Closes tr e.1 → ∀ t r ids, scanned e.2 = some (t, r, ids) → r.spared = none
  selected : ∀ e ∈ tr, Closes tr e.1 → ∀ t r ids, scanned e.2 = some (t, r, ids) →
    (w.store.txns t).isSome = true → ∀ id x, sessionOf (w.store.visible t) id = some x →
      x.userId = r.userId → Settled r x ∨ id ∈ ids
  handled : ∀ e ∈ tr, ∀ t r id, revoked e.2 = some (t, r, id) → r.spared = none →
    (w.store.txns t).isSome = true →
    ∃ y, sessionOf (w.store.visible t) id = some y ∧ (y.userId = r.userId → Settled r y)

theorem Scans.selected_step (h : Scans w tr) (hb : Base w tr) (hi : Issues w tr)
    (hallowed : Allowed pw (historyOf i tr) c) (hexec : Exec w c r w') (hP : Prudent w tr i c) :
    ∀ e ∈ tr, Closes tr e.1 → ∀ t r ids, scanned e.2 = some (t, r, ids) →
      (w'.store.txns t).isSome = true → ∀ id x, sessionOf (w'.store.visible t) id = some x →
        x.userId = r.userId → Settled r x ∨ id ∈ ids := by
  intro e he hcloses t rv ids hscanned ht' id x hx huser
  have htxn : e.2.command.txn = some t := by rw [eq_of_scanned hscanned]; rfl
  have hlt := hb.owned.started _ t (hb.owned.owned _ _ t he htxn)
  have ht := isSome_of_effect hexec.effect hlt ht'
  rcases hi.visible_back hb hexec ht ht' hx with ⟨z, hz, hlater⟩ | rfl |
      ⟨t', rfl, hruns, f, hf, y, hy⟩
  · exact (h.selected e he hcloses t rv ids hscanned ht id z hz (hlater.user ▸ huser)).imp_left
      fun hsettled => hsettled.later hlater
  · -- a reset issues no session
    have hprocess := hb.same_process hallowed rfl he htxn
    exact absurd (closes_iff.mp (hprocess ▸ hcloses)) hallowed.2
  · -- no session of the user is added while the selection is open
    have hcommit : f.2.command.txn = some t' := by rw [eq_of_inserted hy.1]; rfl
    have hprocess := hb.same_process hallowed rfl hf hcommit
    have hended := (hP f hf hprocess (t', y) hy.1 rfl e he hcloses (t, rv, ids) hscanned
      (huser.symm.trans hy.2.symm)).1
    rw [World.runs, ht] at hended
    cases hended

theorem Scans.handled_step (h : Scans w tr) (hb : Base w tr) (hexec : Exec w c r w') :
    ∀ e ∈ tr, ∀ t r id, revoked e.2 = some (t, r, id) → r.spared = none →
      (w'.store.txns t).isSome = true →
      ∃ y, sessionOf (w'.store.visible t) id = some y ∧ (y.userId = r.userId → Settled r y) := by
  intro e he t rv id hrevoked hspared ht'
  have htxn : e.2.command.txn = some t := by
    obtain ⟨b, heq⟩ := eq_of_revoked hrevoked
    rw [heq]
    rfl
  have hlt := hb.owned.started _ t (hb.owned.owned _ _ t he htxn)
  have ht := isSome_of_effect hexec.effect hlt ht'
  obtain ⟨y, hy, hsettled⟩ := h.handled e he t rv id hrevoked hspared ht
  obtain ⟨z, hz, hlater⟩ :=
    (hexec.effect.ages hb.disciplined hb.ageing).visible t ht ht' id y hy
  exact ⟨z, hz, fun huser => (hsettled (hlater.user ▸ huser)).later hlater⟩

/-- A session that was to be revoked is revoked, or was not to be revoked any more. -/
theorem handled_revoke {t : ℕ} {rv : Revocation} {id : Str} {b : Bool}
    (hperforms : Performs w (.revokeSession t rv id) b w') (hspared : rv.spared = none) :
    ∃ y, sessionOf (w'.store.visible t) id = some y ∧ (y.userId = rv.userId → Settled rv y) := by
  obtain ⟨hruns, -, row, hrow, -, rfl⟩ := hperforms
  obtain ⟨u, hu⟩ := Option.isSome_iff_exists.mp hruns
  have hid : row.sessionId = id := sessionId_of_sessionOf hrow
  by_cases hselects : rv.selects row = true
  · refine ⟨{ row with revokedAt := some rv.revokedAt }, ?_, fun _ => .inl (by simp)⟩
    rw [if_pos hselects, sessionOf_eq_some]
    refine (get_visible_grab hu _).trans ?_
    rw [List.find?_cons_of_pos (by simp [Row.key, hid]), Option.some_or]
  · refine ⟨row, ?_, fun huser => settled_of_not_selects hspared huser hselects⟩
    rw [if_neg hselects, sessionOf_eq_some]
    refine (get_visible_grab hu _).trans ?_
    rw [List.find?_nil, Option.none_or]
    exact sessionOf_eq_some.mp hrow

theorem Scans.step (h : Scans w tr) (hb : Base w tr) (hi : Issues w tr)
    (hallowed : Allowed pw (historyOf i tr) c) (hexec : Exec w c r w') (hP : Prudent w tr i c) :
    Scans w' ((i, ⟨c, r⟩) :: tr) := by
  have hclock : w'.clock = w.clock := hexec.clock
  have hspared : Closes ((i, ⟨c, r⟩) :: tr) i → ∀ t rv ids,
      scanned (⟨c, r⟩ : AccountEvent) = some (t, rv, ids) → rv.spared = none := by
    intro hcloses t rv ids hscanned
    cases eq_of_scanned hscanned
    have hclosing := closes_iff.mp hcloses
    rw [historyOf_cons_self] at hclosing
    obtain ⟨e, he, hasked⟩ := hclosing
    rcases List.mem_cons.mp he with rfl | he
    · cases hasked
    · exact (hallowed.2.2.2 ⟨e, he, hasked⟩).1
  refine ⟨?_, ?_, ?_, ?_, ?_⟩
  · -- a process selects sessions once
    have hnew : ∀ f ∈ tr, i = f.1 → ∀ a, scanned (⟨c, r⟩ : AccountEvent) = some a →
        ∀ b, scanned f.2 ≠ some b := by
      rintro ⟨j, f⟩ hf rfl ⟨t, rv, ids⟩ ha b hb
      cases eq_of_scanned ha
      rw [hallowed.2.1 f (mem_historyOf.mpr hf)] at hb
      cases hb
    refine List.forall_mem_cons.mpr ⟨List.forall_mem_cons.mpr ⟨fun _ a ha b hb => ?_, ?_⟩,
      fun e he => List.forall_mem_cons.mpr ⟨?_, h.once e he⟩⟩
    · exact Option.some.inj (ha.symm.trans hb)
    · exact fun f hf hprocess a ha b hb => absurd hb (hnew f hf hprocess a ha b)
    · exact fun hprocess a ha b hb => absurd ha (hnew e he hprocess.symm b hb a)
  · refine List.forall_mem_cons.mpr ⟨fun t rv ids hscanned => ?_, ?_⟩
    · cases eq_of_scanned hscanned
      obtain ⟨e, he, hread⟩ := hallowed.2.2.1
      rw [hclock]
      exact hb.clock (i, e) (mem_historyOf.mp he) _ hread
    · rw [hclock]
      exact h.timed
  · exact List.forall_mem_cons.mpr ⟨hspared,
      fun e he hcloses => h.spared e he (closes_of_cons hallowed he hcloses)⟩
  · refine List.forall_mem_cons.mpr ⟨fun hcloses t rv ids hscanned ht id x hx huser => ?_,
      fun e he hcloses => h.selected_step hb hi hallowed hexec hP e he
        (closes_of_cons hallowed he hcloses)⟩
    have hnone := hspared hcloses t rv ids hscanned
    cases eq_of_scanned hscanned
    rcases hexec with ⟨a, hr, hruns, rfl, hids⟩ | ⟨hr, -⟩
    · cases hr
      by_cases hselects : rv.selects x = true
      · have hid : x.sessionId = id := sessionId_of_sessionOf hx
        exact .inr ((hids id).mpr ⟨x, mem_sessions.mpr (hid ▸ hx), hselects, hid⟩)
      · exact .inl (settled_of_not_selects hnone huser hselects)
    · cases hr
  · refine List.forall_mem_cons.mpr ⟨fun t rv id hrevoked hnone ht => ?_,
      h.handled_step hb hexec⟩
    obtain ⟨b, heq⟩ := eq_of_revoked hrevoked
    cases heq
    rcases hexec with ⟨a, -, hperforms⟩ | ⟨hr, -⟩
    · exact handled_revoke hperforms hnone
    · cases hr

/-! ### Sessions of earlier logins -/

/-- A session that was issued by a login that loaded the user before its sessions were revoked. -/
structure Stale (tr : Traces) (j t : ℕ) (rv : Revocation) (k u : ℕ) (session : SessionRecord) :
    Prop where
  closes : Closes tr j
  scanned : ∃ e ∈ tr, e.1 = j ∧ ∃ ids, scanned e.2 = some (t, rv, ids)
  earlier : Before (Loads k) (Commits j t) tr
  issued : Issued tr k u session
  user : session.userId = rv.userId

/-- What has become of such a session: it is settled, and a call that has read the clock since has
only found it settled. -/
structure Final (w : World) (tr : Traces) : Prop where
  loaded : ∀ j t row, Closes tr j → Before (LoadsRow j row) (Commits j t) tr →
    ∃ e ∈ tr, e.1 = j ∧ ∃ rv ids, PasswordReset.scanned e.2 = some (t, rv, ids) ∧
      row.userId = rv.userId
  settled : ∀ j t rv k u session, Stale tr j t rv k u session →
    ∃ y, sessionOf w.store.rows session.sessionId = some y ∧ Settled rv y
  accepted : ∀ j t rv k u session, Stale tr j t rv k u session →
    ∀ i n, Before (Commits j t) (Reads i n) tr → rv.revokedAt ≤ n ∧
      ∀ e ∈ tr, e.1 = i → ∀ x, found e.2 = some x → x.sessionId = session.sessionId → Settled rv x

/-- A step makes no session one of an earlier login, but the commit of the revocation. -/
theorem stale_of_cons (hb : Base w tr) (hallowed : Allowed pw (historyOf i tr) c)
    (hexec : Exec w c r w') (hP : Prudent w tr i c) {j t k u : ℕ} {rv : Revocation}
    {session : SessionRecord} (h : Stale ((i, ⟨c, r⟩) :: tr) j t rv k u session) :
    Stale tr j t rv k u session ∨ (i = j ∧ c = .commit t ∧ w.runs t = true ∧
      w' = w.withStore (w.store.commit t) ∧ Closes tr j ∧
      (∃ e ∈ tr, e.1 = j ∧ ∃ ids, scanned e.2 = some (t, rv, ids)) ∧ Issued tr k u session ∧
      session.userId = rv.userId) := by
  obtain ⟨hcloses', ⟨e, he', hprocess, ids, hscanned⟩, hearlier, hissued, huser⟩ := h
  -- a selection after the commit is impossible
  have he : e ∈ tr := by
    rcases List.mem_cons.mp he' with rfl | he
    · cases eq_of_scanned hscanned
      rcases hearlier with ⟨⟨-, hc⟩, -⟩ | hearlier
      · cases eq_of_committed hc
      · obtain ⟨f, hf, -, hc⟩ := hearlier.right
        rcases hexec with ⟨a, -, hruns, -⟩ | ⟨hr, -⟩
        · exact absurd hc (hb.not_committed hruns hf)
        · cases hr
    · exact he
  have hcloses : Closes tr j := hprocess ▸ closes_of_cons hallowed he (hprocess ▸ hcloses')
  have hforbidden : ∀ u, c = .commit u → (∃ a ∈ tr, Inserts i u session a) →
      w.runs t = false ∧ ¬ Before (Loads i) (Commits j t) tr := by
    rintro u rfl ⟨a, ha, hprocess', hinserted⟩
    have hboth := hP a ha hprocess' (u, session) hinserted rfl e he (hprocess ▸ hcloses)
      (t, rv, ids) hscanned huser.symm
    rwa [hprocess] at hboth
  rcases hearlier with ⟨⟨hij, hc⟩, -⟩ | hearlier
  · cases eq_of_committed hc
    rcases hexec with ⟨a, -, hruns, hw⟩ | ⟨hr, -⟩
    · refine .inr ⟨hij, rfl, hruns, hw, hcloses, ⟨e, he, hprocess, ids, hscanned⟩, ?_, huser⟩
      rcases hissued with ⟨⟨hik, hu⟩, a, ha, hinserts⟩ | hissued
      · cases hu
        have hended := (hforbidden t rfl ⟨a, ha, hinserts.1.trans hik.symm, hinserts.2⟩).1
        rw [hruns] at hended
        cases hended
      · exact hissued
    · cases hr
  · refine .inl ⟨hcloses, ⟨e, he, hprocess, ids, hscanned⟩, hearlier, ?_, huser⟩
    rcases hissued with ⟨⟨hik, hu⟩, a, ha, hinserts⟩ | hissued
    · dsimp only at hik
      subst hik
      cases eq_of_committed hu
      exact absurd hearlier (hforbidden u rfl ⟨a, ha, hinserts⟩).2
    · exact hissued

theorem Final.loaded_step (h : Final w tr) (hallowed : Allowed pw (historyOf i tr) c) {j t : ℕ}
    {row : UserRecord} (hcloses : Closes ((i, ⟨c, r⟩) :: tr) j)
    (hbefore : Before (LoadsRow j row) (Commits j t) ((i, ⟨c, r⟩) :: tr)) :
    ∃ e ∈ (i, ⟨c, r⟩) :: tr, e.1 = j ∧ ∃ rv ids, PasswordReset.scanned e.2 = some (t, rv, ids) ∧
      row.userId = rv.userId := by
  rcases hbefore with ⟨⟨hij, hc⟩, ⟨_, e⟩, he, rfl, hload⟩ | hbefore
  · dsimp only at hij
    subst hij
    cases eq_of_committed hc
    have hclosing := closes_iff.mp (closes_of_cons hallowed he hcloses)
    obtain ⟨f, hf, rv, ids, hscanned, -, -, huser⟩ := hallowed.2 hclosing
    exact ⟨(i, f), List.mem_cons_of_mem _ (mem_historyOf.mp hf), rfl, rv, ids, hscanned,
      huser e (mem_historyOf.mpr he) row hload⟩
  · obtain ⟨e, he, hprocess, -⟩ := hbefore.left
    have hcloses₀ : Closes tr j := hprocess ▸ closes_of_cons hallowed he (hprocess ▸ hcloses)
    obtain ⟨f, hf, hrest⟩ := h.loaded j t row hcloses₀ hbefore
    exact ⟨f, List.mem_cons_of_mem _ hf, hrest⟩

/-- The commit of a revocation settles the sessions that were issued before. -/
theorem settled_of_commit (hb : Base w tr) (hi : Issues w tr) (hs : Scans w tr) {t k u : ℕ}
    {rv : Revocation} {ids : List Str} {session : SessionRecord} {e : ℕ × AccountEvent}
    (hallowed : Allowed pw (historyOf e.1 tr) (.commit t)) (hruns : w.runs t = true) (he : e ∈ tr)
    (hcloses : Closes tr e.1) (hscanned : scanned e.2 = some (t, rv, ids))
    (hissued : Issued tr k u session) (huser : session.userId = rv.userId) :
    ∃ y, sessionOf (w.store.visible t) session.sessionId = some y ∧ Settled rv y := by
  obtain ⟨x, hx, hxuser⟩ := hi.issued k u session hissued
  obtain ⟨y, hy, hlater⟩ := hb.ageing.grows_visible t _ x hx
  have hyuser : y.userId = rv.userId := hlater.user.trans (hxuser.trans huser)
  refine ⟨y, hy, ?_⟩
  rcases hs.selected e he hcloses t rv ids hscanned hruns _ y hy hyuser with hsettled | hid
  · exact hsettled
  · obtain ⟨f, hf, rv', ids', hscanned', hspared, hrevoked, -⟩ := hallowed.2 (closes_iff.mp hcloses)
    have hsame := hs.once e he (e.1, f) (mem_historyOf.mp hf) rfl _ hscanned _ hscanned'
    cases hsame
    obtain ⟨g, hg, hrevoked⟩ := hrevoked _ hid
    obtain ⟨z, hz, hsettled⟩ :=
      hs.handled (e.1, g) (mem_historyOf.mp hg) t rv _ hrevoked hspared hruns
    rw [hy] at hz
    cases hz
    exact hsettled hyuser

theorem Final.step (h : Final w tr) (hb : Base w tr) (hi : Issues w tr) (hs : Scans w tr)
    (hallowed : Allowed pw (historyOf i tr) c) (hexec : Exec w c r w') (hP : Prudent w tr i c) :
    Final w' ((i, ⟨c, r⟩) :: tr) := by
  have hages := hexec.effect.ages hb.disciplined hb.ageing
  refine ⟨fun j t row hcloses hbefore => h.loaded_step hallowed hcloses hbefore,
    fun j t rv k u session hstale => ?_, fun j t rv k u session hstale n now hread => ?_⟩
  · rcases stale_of_cons hb hallowed hexec hP hstale with hold |
      ⟨rfl, rfl, hruns, rfl, hcloses, ⟨e, he, rfl, ids, hscanned⟩, hissued, huser⟩
    · obtain ⟨y, hy, hsettled⟩ := h.settled j t rv k u session hold
      obtain ⟨z, hz, hlater⟩ := hages.rows _ y hy
      exact ⟨z, hz, hsettled.later hlater⟩
    · exact settled_of_commit hb hi hs hallowed hruns he hcloses hscanned hissued huser
  · rcases stale_of_cons hb hallowed hexec hP hstale with hold | ⟨rfl, rfl, hruns, -⟩
    · rcases hread with ⟨⟨hin, hnow⟩, -⟩ | hread
      · -- the clock is read now, and nothing has been found yet
        dsimp only at hin
        subst hin
        cases eq_of_readClock hnow
        obtain ⟨e, he, -, ids, hscanned⟩ := hold.scanned
        refine ⟨?_, List.forall_mem_cons.mpr ⟨fun _ x hx => (by cases hx), ?_⟩⟩
        · rcases hexec with ⟨a, hr, ha, -⟩ | ⟨hr, -⟩
          · cases hr
            exact ha ▸ hs.timed e he t rv ids hscanned
          · cases hr
        · rintro ⟨_, e⟩ he rfl x hx
          have hnone := hallowed.2 e (mem_historyOf.mpr he)
          rw [hnone] at hx
          cases hx
      · obtain ⟨hle, hall⟩ := h.accepted j t rv k u session hold n now hread
        refine ⟨hle, List.forall_mem_cons.mpr ⟨fun _ x hx hid => ?_, hall⟩⟩
        obtain ⟨th, hash, heq⟩ := eq_of_found hx
        cases heq
        rcases hexec with ⟨a, hr, hruns, -, ha⟩ | ⟨hr, -⟩
        · cases hr
          have hmem := mem_sessions.mp (List.mem_of_find?_eq_some ha.symm)
          obtain ⟨y, hy, hsettled⟩ := h.settled j t rv k u session hold
          obtain ⟨z, hz, hlater⟩ := hb.ageing.grows_visible th _ y hy
          rw [← hid, hmem] at hz
          cases hz
          exact hsettled.later hlater
        · cases hr
    · rcases hread with ⟨⟨-, hnow⟩, -⟩ | hread
      · cases eq_of_readClock hnow
      · obtain ⟨f, hf, -, hc⟩ := hread.left
        exact absurd hc (hb.not_committed hruns hf)

/-! ### Password hashes -/

theorem Authorises.mono {h h' : Past} {id hash : Str} (ha : Authorises pw h id hash)
    (hsubset : h ⊆ h') : Authorises pw h' id hash := by
  rcases ha with ⟨e, he, f, hf, hreset⟩ | ⟨e, he, f, hf, hchange⟩
  · exact .inl ⟨e, hsubset he, f, hsubset hf, hreset⟩
  · exact .inr ⟨e, hsubset he, f, hsubset hf, hchange⟩

theorem historyOf_subset (j : ℕ) (e : ℕ × AccountEvent) :
    historyOf j tr ⊆ historyOf j (e :: tr) := by
  intro f hf
  exact mem_historyOf.mpr (List.mem_cons_of_mem _ (mem_historyOf.mp hf))

/-- A user a transaction sees is one it has written, or the committed row. -/
theorem userOf_visible_cases {s : AccountStore} {t : ℕ} {u : Txn Row Key} {id : Str}
    {row : UserRecord} (ht : s.txns t = some u) (hrow : userOf (s.visible t) id = some row) :
    .user row ∈ u.writes ∨ userOf s.rows id = some row := by
  rw [userOf_eq_some, get_visible ht] at hrow
  cases hfound : u.writes.find? fun r => r.key = .user id with
  | none =>
      rw [hfound, Option.none_or] at hrow
      exact .inr (userOf_eq_some.mpr hrow)
  | some v =>
      rw [hfound, Option.some_or] at hrow
      cases hrow
      exact .inl (List.mem_of_find?_eq_some hfound)

/-- A user that is committed is one that every transaction sees. -/
theorem exists_userOf_visible {s : AccountStore} (t : ℕ) {id : Str} {row : UserRecord}
    (hrow : userOf s.rows id = some row) : ∃ row', userOf (s.visible t) id = some row' := by
  cases ht : s.txns t with
  | none => exact ⟨row, by rwa [visible_of_none ht]⟩
  | some u =>
      cases hfound : u.writes.find? fun r => r.key = .user id with
      | none =>
          refine ⟨row, ?_⟩
          rwa [userOf, get_visible ht, hfound, Option.none_or, ← userOf]
      | some v =>
          have hkey : v.key = .user id := by simpa using List.find?_some hfound
          cases v with
          | session v => cases hkey
          | user v => exact ⟨v, by rw [userOf_eq_some, get_visible ht, hfound, Option.some_or]⟩

/-- A running transaction has kept the committed hash of a user it has written, or its process may
replace that hash. -/
def Hashes (pw : Passwords) (w : World) (tr : Traces) : Prop :=
  ∀ t u v, w.store.txns t = some u → .user v ∈ u.writes →
    ∀ row, userOf w.store.rows v.userId = some row → v.passwordHash = row.passwordHash ∨
      ∃ j, (j, ⟨.start, .ok t⟩) ∈ tr ∧ Authorises pw (historyOf j tr) v.userId row.passwordHash

theorem Hashes.cons (h : Hashes pw w tr) (e : ℕ × AccountEvent) : Hashes pw w (e :: tr) := by
  intro t u v hu hv row hrow
  refine (h t u v hu hv row hrow).imp_right ?_
  rintro ⟨j, hj, hauthorises⟩
  exact ⟨j, List.mem_cons_of_mem _ hj, hauthorises.mono (historyOf_subset j e)⟩

/-- A changed hash is written over the one that was verified. -/
theorem authorises_of_update {t : ℕ} {id : Str} {changes : UserChanges} {row : UserRecord}
    (hallowed : Allowed pw (historyOf i tr) (.updateUser t id changes))
    (hP : Prudent w tr i (.updateUser t id changes)) (hsome : changes.passwordHash.isSome = true)
    (hrow : userOf w.store.rows id = some row) :
    Authorises pw (historyOf i tr) id row.passwordHash := by
  obtain ⟨hash, hreset | ⟨e, he, f, hf, actor, current, new, sessionId, hasked, hverify, v, hv,
    huser, rfl⟩⟩ := hallowed.2 hsome
  · exact .inl hreset
  · have hsame := hP hsome (i, f) (mem_historyOf.mp hf) rfl v hv
    rw [hrow, Option.any_some, decide_eq_true_eq] at hsame
    exact .inr ⟨e, he, f, hf, actor, current, new, sessionId, hasked, hsame ▸ hverify, v, hv,
      huser, hsame.symm⟩

theorem Hashes.step (h : Hashes pw w tr) (hb : Base w tr)
    (hallowed : Allowed pw (historyOf i tr) c) (hexec : Exec w c r w') (hP : Prudent w tr i c) :
    Hashes pw w' ((i, ⟨c, r⟩) :: tr) := by
  refine Hashes.cons (fun t u v hu hv row hrow => ?_) _
  have heffect := hexec.effect
  generalize w'.store = s' at heffect hu hrow
  cases heffect with
  | nothing => exact h t u v hu hv row hrow
  | start =>
      rw [Store.txns_start] at hu
      split at hu
      · cases hu
        cases hv
      · exact h t u v hu hv row hrow
  | rollback =>
      rw [Store.txns_abort] at hu
      split at hu
      · cases hu
      · exact h t u v hu hv row hrow
  | @commit t' =>
      rw [Store.txns_commit] at hu
      split at hu
      · cases hu
      · rename_i hne
        have hlock := hb.disciplined.locked t u (.user v) hu hv
        have hsame := Store.get_commit_of_locked hb.disciplined hu hlock hne
        refine h t u v hu hv row ?_
        rw [userOf_eq_some] at hrow ⊢
        exact hsame ▸ hrow
  | @grab c a t' k versions htxn hfree hkey hwrites =>
      rw [Store.rows_grab] at hrow
      rw [Store.txns_grab] at hu
      split at hu
      · rename_i heq
        subst heq
        obtain ⟨u₀, hu₀, rfl⟩ := Option.map_eq_some_iff.mp hu
        rcases List.mem_append.mp hv with hv | hv
        · cases hwrites _ hv with
          | insert => exact hallowed.2.elim
          | @update id changes old hold =>
              have hid : old.userId = id := userId_of_userOf hold
              have hrow' : userOf w.store.rows old.userId = some row := hrow
              cases hchanged : changes.passwordHash with
              | some hash =>
                  refine .inr ⟨i, mem_historyOf.mp (hallowed.1 t rfl), ?_⟩
                  have hauthorises := authorises_of_update hallowed hP (by rw [hchanged]; rfl)
                    (hid ▸ hrow')
                  exact hid.symm ▸ hauthorises
              | none =>
                  -- the version keeps the hash that the transaction has seen
                  have hsame : (changes.apply old).passwordHash = old.passwordHash := by
                    change changes.passwordHash.getD old.passwordHash = old.passwordHash
                    rw [hchanged, Option.getD_none]
                  rw [hsame]
                  rcases userOf_visible_cases hu₀ hold with hmem | hcommitted
                  · exact h t u₀ old hu₀ hmem row hrow'
                  · rw [← hid, hrow'] at hcommitted
                    cases hcommitted
                    exact .inl rfl
        · exact h t u₀ v hu₀ hv row hrow
      · exact h t u v hu hv row hrow

/-- One step keeps the hash of a user, or it is the commit of a process that may replace it. -/
theorem Hashes.kept (h : Hashes pw w tr) (hb : Base w tr)
    (hallowed : Allowed pw (historyOf i tr) c) (hexec : Exec w c r w') {id : Str}
    {row : UserRecord} (hrow : userOf w.store.rows id = some row) :
    (∃ row', userOf w'.store.rows id = some row' ∧ row'.passwordHash = row.passwordHash) ∨
      ((committed (⟨c, r⟩ : AccountEvent)).isSome = true ∧
        Authorises pw (historyOf i tr) id row.passwordHash) := by
  have heffect := hexec.effect
  generalize w'.store = s' at heffect
  cases heffect with
  | nothing => exact .inl ⟨row, hrow, rfl⟩
  | start => exact .inl ⟨row, hrow, rfl⟩
  | grab => exact .inl ⟨row, by rwa [Store.rows_grab], rfl⟩
  | rollback => exact .inl ⟨row, hrow, rfl⟩
  | @commit t =>
      obtain ⟨v, hv⟩ := exists_userOf_visible t hrow
      have hid : v.userId = id := userId_of_userOf hv
      cases ht : w.store.txns t with
      | none =>
          rw [visible_of_none ht, hrow] at hv
          cases hv
          refine .inl ⟨row, ?_, rfl⟩
          rwa [Store.commit, visible_of_none ht]
      | some u =>
          rcases userOf_visible_cases ht hv with hmem | hcommitted
          · rcases h t u v ht hmem row (hid ▸ hrow) with hsame | ⟨j, hj, hauthorises⟩
            · exact .inl ⟨v, hv, hsame⟩
            · refine .inr ⟨rfl, ?_⟩
              have hij : j = i := hb.owned.single j i t hj (mem_historyOf.mp (hallowed.1 t rfl))
              exact hid ▸ hij ▸ hauthorises
          · rw [hrow] at hcommitted
            cases hcommitted
            exact .inl ⟨row, hv, rfl⟩

end Step

end Gjallar.PasswordReset

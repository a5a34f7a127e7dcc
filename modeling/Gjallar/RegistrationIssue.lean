import Gjallar.RegistrationContract

/-!
# A registration issues at most one token

Whatever calls run at once, crash or fail, the phase of an attempt moves along one graph and its
version grows with each move. A token is requested at most once for each attempt, by the call that
has marked it and for the plan that was confirmed; roles and grants follow a stored secret; the
token is deleted at most once, after the durable mark of its revocation.
-/
namespace Gjallar.RegistrationService

open Gjallar.Text Gjallar.Data Gjallar.Operation Gjallar.Registration Gjallar.Transactions
  Gjallar.Interleaving Gjallar.RegistrationStore Gjallar.Planning Gjallar.Processes
  Gjallar.Processes.Fallible
open Gjallar.ConnectionSwitch (Request callSite clusterIntent firstAttempt)

/-! ### Attempts -/

section Attempts

variable {w w' : World} {h : Past} {c : Command} {r : Except Failure (Reply c)} {b v : Setup}
  {id : Str} {row : Attempt}

/-- An attempt after one step. -/
def Follows (row row' : Attempt) : Prop :=
  row' = row ∨ Moves row row'

theorem Turn.follows (h : Turn b v) (hrow : b.attempts id = some row) :
    ∃ row', v.attempts id = some row' ∧ Follows row row' := by
  cases h with
  | kept heq => exact ⟨row, heq ▸ hrow, .inl rfl⟩
  | @made new hnew hphase hsettled heq =>
      have hne : id ≠ new.attemptId := by
        rintro rfl
        rw [hnew] at hrow
        cases hrow
      exact ⟨row, by rw [heq, Function.update_of_ne hne, hrow], .inl rfl⟩
  | moved old new hold hmoves heq =>
      by_cases hid : id = new.attemptId
      · subst hid
        have hsame : old = row := Option.some.inj (hold.symm.trans hrow)
        subst hsame
        exact ⟨new, by rw [heq, Function.update_self], .inr hmoves⟩
      · exact ⟨row, by rw [heq, Function.update_of_ne hid, hrow], .inl rfl⟩

/-- Only transactions change the database. -/
theorem db_of_exec (hexec : Exec w c r w') (hc : ∀ q, c ≠ .transaction q) : w'.db = w.db := by
  cases c with
  | transaction q => exact absurd rfl (hc q)
  | receive call => rw [hexec.2]
  | get attemptId actorId => rw [hexec.2]
  | pending site attemptId actorId => rw [hexec.2]
  | clock => rw [hexec.2]
  | time => rw [hexec.2]
  | lookup attemptId => rw [hexec.2]
  | load ref => rw [hexec.2]
  | publish attemptId ctx => rw [hexec.2]
  | setPlan ref plan => rw [hexec.2]
  | drop attemptId => rw [hexec.2]
  | invalidate sessionId => rw [hexec.2]
  | limit actorId =>
      obtain ⟨now, -, rfl⟩ := hexec
      rfl
  | connect t => exact congrArg World.db hexec
  | request r => exact congrArg World.db hexec
  | getenv => exact congrArg World.db hexec

/-- Every command makes an attempt or moves one to a next phase. -/
theorem turn_of_exec (hc : Allowed h c) (hexec : Exec w c r w') :
    Turn w.db.setup w'.db.setup := by
  by_cases hq : ∃ q, c = .transaction q
  · obtain ⟨q, rfl⟩ := hq
    cases hexec with
    | done hends hbase => exact hbase ▸ turn_of_ends hc hends
    | unconfirmed e hends hbase => exact hbase ▸ turn_of_ends hc hends
    | failed e => exact .kept rfl
  · rw [db_of_exec hexec fun q heq => hq ⟨q, heq⟩]
    exact .kept rfl

theorem follows_of_exec (hc : Allowed h c) (hexec : Exec w c r w')
    (hrow : w.attempts id = some row) : ∃ row', w'.attempts id = some row' ∧ Follows row row' :=
  (turn_of_exec hc hexec).follows hrow

/-- The attempt that a reply shows is stored after it. -/
theorem shown_of_exec (hexec : Exec w c r w') (hseen : seen ⟨c, r⟩ = some row) :
    w'.attempts row.attemptId = some row := by
  cases c with
  | get attemptId actorId =>
      obtain ⟨hreply, rfl⟩ := hexec
      cases r with
      | error e => cases hseen
      | ok row' =>
          cases hseen
          rcases hreply with hreply | ⟨e, he⟩
          · obtain ⟨hrow, -⟩ := owned_eq_ok hreply.symm
            rw [attemptId_of_attempts hrow]
            exact hrow
          · cases he
  | transaction q =>
      cases r with
      | error e => cases q <;> cases hseen
      | ok row' =>
          cases hexec with
          | done hends hbase =>
              cases q with
              | advance site attemptId actorId version phases a =>
                  cases hseen
                  obtain ⟨before, hadvanced⟩ := advanced_of_ends hends
                  have hid : row.attemptId = attemptId := by
                    rw [hadvanced.result]
                    exact hadvanced.id
                  exact (congrFun hadvanced.attempts _).trans (by rw [hid, Function.update_self])
              | stageSecret site attemptId actorId version secret tokenId =>
                  cases hseen
                  refine setup_of_ends (Q := fun _ v => v.attempts row.attemptId = some row) hends
                    fun u hrun => ?_
                  obtain ⟨b, _, _, hold, -⟩ := stageSecret_ok hrun
                  exact ⟨b, _, hold, Function.update_self ..⟩
              | _ => cases hseen
  | _ => cases hseen

/-- The marker of a token request moves a planned attempt that was seen at its version. -/
theorem marked_of_exec (hc : Allowed h c) (hexec : Exec w c r w')
    (hmark : marks id ⟨c, r⟩ = true) :
    ∃ version phases a before after, seen ⟨c, r⟩ = some after ∧
      Advanced id version phases a after w.db.setup w'.db.setup before ∧
      AdvanceAllowed h id version phases a ∧ a.phase = .tokenDispatching := by
  cases c with
  | transaction q =>
      cases q with
      | advance site attemptId actorId version phases a =>
          cases r with
          | error e => cases hmark
          | ok after =>
              have hmark' : (decide (attemptId = id) &&
                  decide (a.phase = .tokenDispatching)) = true := hmark
              rw [Bool.and_eq_true, decide_eq_true_eq, decide_eq_true_eq] at hmark'
              obtain ⟨rfl, hphase⟩ := hmark'
              cases hexec with
              | done hends hbase =>
                  obtain ⟨before, hadvanced⟩ := advanced_of_ends hends
                  exact ⟨version, phases, a, before, after, rfl, hbase ▸ hadvanced, hc, hphase⟩
      | _ => cases hmark
  | _ => cases hmark

/-- The mark of a revocation. -/
theorem revoked_of_exec (hexec : Exec w c r w') (hrevokes : revokes id ⟨c, r⟩ = true) :
    (∃ before, w.attempts id = some before ∧ before.phase ∉ unrevocable) ∧
      ∃ after, w'.attempts id = some after ∧ after.phase = .revocationPending := by
  cases c with
  | transaction q =>
      cases q with
      | beginRevoke site attemptId actorId version =>
          cases r with
          | error e => cases hrevokes
          | ok after =>
              have hid : attemptId = id := of_decide_eq_true hrevokes
              subst hid
              cases hexec with
              | done hends hbase =>
                  rw [World.attempts, World.attempts, ← hbase]
                  refine setup_of_ends (Q := fun b v => (∃ before, b.attempts attemptId =
                    some before ∧ before.phase ∉ unrevocable) ∧ ∃ after, v.attempts attemptId =
                      some after ∧ after.phase = .revocationPending) hends fun u hrun => ?_
                  obtain ⟨b, row, connection, v, hold, howns, -, -, hphase, -, hr⟩ :=
                    beginRevoke_ok hrun
                  refine ⟨b, _, hold, ⟨row, howns.stored, hphase⟩, after, ?_, by rw [hr]⟩
                  have hid : after.attemptId = attemptId := by
                    rw [hr]
                    exact howns.id
                  rw [← hid]
                  exact Function.update_self ..
      | _ => cases hrevokes
  | _ => cases hrevokes

end Attempts

/-! ### What a trace has left in the database -/

/-- The call that set the marker had received the confirmation of the plan that it marks. -/
def ConfirmedBy (id : Str) (m : Step) (h : Past) : Prop := ∃ c row, seen m = some row ∧
  c.attemptId = id ∧ ⟨.receive (.confirm c row.planDigest), .ok ()⟩ ∈ h

/-- What was seen is stored or older than what is stored, a marked attempt stays after the request
of its token, and it was marked once; so with revocations. -/
structure Kept (w : World) (t : Events) : Prop where
  seen : ∀ i e row, (i, e) ∈ t → seen e = some row → ∃ current,
    w.attempts row.attemptId = some current ∧ (current = row ∨ row.version < current.version)
  marked : ∀ id i e, (i, e) ∈ t → marks id e = true → ∃ current, w.attempts id = some current ∧
    current.phase ∈ issued
  confirmed : ∀ id newer i e older, t = newer ++ (i, e) :: older → marks id e = true →
    ConfirmedBy id e (historyOf i older)
  markedOnce : ∀ id, (t.countP fun e => marks id e.2) ≤ 1
  revoked : ∀ id i e, (i, e) ∈ t → revokes id e = true → ∃ current,
    w.attempts id = some current ∧ current.phase ∈ revoking
  revokedOnce : ∀ id, (t.countP fun e => revokes id e.2) ≤ 1

section Kept

variable {w w' : World} {t : Events} {i : ℕ} {c : Command} {r : Except Failure (Reply c)}

theorem kept_nil (w : World) : Kept w [] := by
  refine ⟨by simp, by simp, fun id newer i e older heq => ?_, by simp, by simp, by simp⟩
  cases newer <;> cases heq

theorem Follows.mem_closed {row row' : Attempt} {phases : List Phase} (h : Follows row row')
    (hclosed : Closed phases) (hrow : row.phase ∈ phases) : row'.phase ∈ phases := by
  rcases h with rfl | hmoves
  · exact hrow
  · exact hclosed _ hrow _ hmoves.phase

/-- A mark that is set once for each attempt. -/
theorem countP_cons_le_one {mark : Step → Bool} {e : Step}
    (hold : (t.countP fun e => mark e.2) ≤ 1)
    (hnew : mark e = true → ∀ i x, (i, x) ∈ t → mark x = false) :
    (((i, e) :: t).countP fun e => mark e.2) ≤ 1 := by
  rw [List.countP_cons]
  split
  · rename_i he
    have hnone : (t.countP fun e => mark e.2) = 0 := by
      rw [List.countP_eq_zero]
      rintro ⟨j, x⟩ hx hmark
      rw [hnew he j x hx] at hmark
      cases hmark
    rw [hnone]
  · exact hold

theorem Kept.cons (h : Kept w t) (hc : Allowed (historyOf i t) c) (hexec : Exec w c r w') :
    Kept w' ((i, ⟨c, r⟩) :: t) := by
  -- an attempt that was seen at the version that is stored is the stored one
  have hmark : ∀ id, marks id ⟨c, r⟩ = true → (∃ before, w.attempts id = some before ∧
      before.phase = .planned) ∧ (∃ after, w'.attempts id = some after ∧
        after.phase = .tokenDispatching) ∧ ConfirmedBy id ⟨c, r⟩ (historyOf i t) := by
    intro id hmarks
    obtain ⟨version, phases, a, before, after, hseen, hadvanced, hallowed, hphase⟩ :=
      marked_of_exec hc hexec hmarks
    obtain ⟨row, ⟨e, he, hrow⟩, hid, hversion, hphases, hnext, -, hconfirmed⟩ := hallowed
    obtain ⟨current, hcurrent, hsame⟩ := h.seen i e row (mem_historyOf.mp he) hrow
    rw [hid] at hcurrent
    have hbefore : current = before := Option.some.inj (hcurrent.symm.trans hadvanced.stored)
    subst hbefore
    have heq : current = row := by
      rcases hsame with heq | hlt
      · exact heq
      · have := hadvanced.version
        omega
    subst heq
    obtain ⟨caller, hcaller, hdigest, hreceived⟩ := hconfirmed hphase
    have hresult := hadvanced.result
    have hplan : after.planDigest = current.planDigest := by
      rw [hresult, Attempt.advanced, hdigest]
      rfl
    refine ⟨⟨current, hcurrent, ?_⟩, ⟨after, ?_, ?_⟩, caller, after, hseen, hcaller, ?_⟩
    · rw [hphase] at hnext
      exact tokenDispatching_mem_nextPhases hnext
    · exact (congrFun hadvanced.attempts id).trans (Function.update_self ..)
    · rw [hresult]
      exact hphase
    · rw [hplan]
      exact hreceived
  have hplanned : Phase.planned ∉ issued := by decide
  have hdispatching : Phase.tokenDispatching ∈ issued := by decide
  have hrevocable : ∀ p ∈ revoking, p ∈ unrevocable := by decide
  have hpending : Phase.revocationPending ∈ revoking := by decide
  refine ⟨?_, ?_, ?_, fun id => ?_, ?_, fun id => ?_⟩
  · intro j e row hmem hseen
    rcases List.mem_cons.mp hmem with heq | hmem
    · cases heq
      exact ⟨row, shown_of_exec hexec hseen, .inl rfl⟩
    · obtain ⟨current, hcurrent, hsame⟩ := h.seen j e row hmem hseen
      obtain ⟨after, hafter, hfollows⟩ := follows_of_exec hc hexec hcurrent
      refine ⟨after, hafter, ?_⟩
      rcases hfollows with rfl | hmoves
      · exact hsame
      · have hversion := hmoves.version
        refine .inr ?_
        rcases hsame with rfl | hlt
        · omega
        · omega
  · intro id j e hmem hmarks
    rcases List.mem_cons.mp hmem with heq | hmem
    · cases heq
      obtain ⟨-, ⟨after, hafter, hphase⟩, -⟩ := hmark id hmarks
      exact ⟨after, hafter, hphase ▸ hdispatching⟩
    · obtain ⟨current, hcurrent, hphase⟩ := h.marked id j e hmem hmarks
      obtain ⟨after, hafter, hfollows⟩ := follows_of_exec hc hexec hcurrent
      exact ⟨after, hafter, hfollows.mem_closed closed_issued hphase⟩
  · intro id newer j e older heq hmarks
    cases newer with
    | nil =>
        cases heq
        exact (hmark id hmarks).2.2
    | cons x newer =>
        obtain ⟨-, rfl⟩ := List.cons.inj heq
        exact h.confirmed id newer j e older rfl hmarks
  · refine countP_cons_le_one (h.markedOnce id) fun hmarks j x hx => ?_
    by_contra hagain
    rw [Bool.not_eq_false] at hagain
    obtain ⟨⟨before, hbefore, hphase⟩, -⟩ := hmark id hmarks
    obtain ⟨current, hcurrent, hissued⟩ := h.marked id j x hx hagain
    rw [Option.some.inj (hcurrent.symm.trans hbefore), hphase] at hissued
    exact hplanned hissued
  · intro id j e hmem hrevokes
    rcases List.mem_cons.mp hmem with heq | hmem
    · cases heq
      obtain ⟨-, after, hafter, hphase⟩ := revoked_of_exec hexec hrevokes
      exact ⟨after, hafter, hphase ▸ hpending⟩
    · obtain ⟨current, hcurrent, hphase⟩ := h.revoked id j e hmem hrevokes
      obtain ⟨after, hafter, hfollows⟩ := follows_of_exec hc hexec hcurrent
      exact ⟨after, hafter, hfollows.mem_closed closed_revoking hphase⟩
  · refine countP_cons_le_one (h.revokedOnce id) fun hrevokes j x hx => ?_
    by_contra hagain
    rw [Bool.not_eq_false] at hagain
    obtain ⟨⟨before, hbefore, hphase⟩, -⟩ := revoked_of_exec hexec hrevokes
    obtain ⟨current, hcurrent, hrevoking⟩ := h.revoked id j x hx hagain
    rw [Option.some.inj (hcurrent.symm.trans hbefore)] at hrevoking
    exact hphase (hrevocable _ hrevoking)

theorem Kept.drift (h : Kept w t) (hd : Drift w w') : Kept w' t := by
  have hattempts : w'.attempts = w.attempts := by
    cases hd with
    | database heq => exact congrArg Setup.attempts heq
    | restart => rfl
  refine ⟨?_, ?_, h.confirmed, h.markedOnce, ?_, h.revokedOnce⟩
  · rw [hattempts]
    exact h.seen
  · rw [hattempts]
    exact h.marked
  · rw [hattempts]
    exact h.revoked

end Kept

/-! ### Every run -/

section Runs

variable {lib : Library} {t : Events} {id : Str} {i : ℕ}

/-- A server starts without contexts, on attempts that are resolved when they are over. -/
def Initial (w : World) : Prop :=
  w.memory = {} ∧ ∀ id row, w.attempts id = some row → Settled row

theorem tokenOf_ticket : tokenOf "/access/ticket" = none := by decide +kernel

theorem tokenOf_roles : tokenOf "/access/roles" = none := by decide +kernel

/-- The token of an attempt is requested in the first request after the marker. -/
theorem since_of_post {h : Past} {r : HttpRequest} (hr : RequestAllowed h r)
    (hmethod : r.method = .post) (hpath : tokenOf r.path = some id) : Since (marks id) h := by
  rw [RequestAllowed, hmethod] at hr
  rcases hr with hticket | ⟨hroles, -⟩ | ⟨id', hid, hsince⟩
  · rw [hticket, tokenOf_ticket] at hpath
    cases hpath
  · rw [hroles, tokenOf_roles] at hpath
    cases hpath
  · rw [hid, Option.some.injEq] at hpath
    exact hpath ▸ hsince

theorem since_of_delete {h : Past} {r : HttpRequest} (hr : RequestAllowed h r)
    (hmethod : r.method = .delete) (hpath : tokenOf r.path = some id) : Since (revokes id) h := by
  rw [RequestAllowed, hmethod] at hr
  obtain ⟨id', hid, hsince⟩ := hr
  rw [hid, Option.some.injEq] at hpath
  exact hpath ▸ hsince

theorem addresses_eq_true {method : Method} {e : Step} (h : addresses method id e = true) :
    ∃ r, e.command = .request r ∧ r.method = method ∧ tokenOf r.path = some id := by
  obtain ⟨c, answer⟩ := e
  cases c with
  | request r =>
      have h' : (decide (r.method = method) && decide (tokenOf r.path = some id)) = true := h
      rw [Bool.and_eq_true, decide_eq_true_eq, decide_eq_true_eq] at h'
      exact ⟨r, rfl, h'.1, h'.2⟩
  | _ => cases h

theorem since_of_addresses {method : Method} {mark : Step → Bool}
    (hsince : ∀ h r, RequestAllowed h r → r.method = method → tokenOf r.path = some id →
      Since mark h) (ht : AllowedTrace Allowed t) {newer older : Events} {e : Step}
    (heq : t = newer ++ (i, e) :: older) (he : addresses method id e = true) :
    Since mark (historyOf i older) := by
  obtain ⟨r, hcommand, hmethod, hpath⟩ := addresses_eq_true he
  have hallowed := ht newer i e older heq
  rw [hcommand] at hallowed
  exact hsince _ r hallowed hmethod hpath

/-- So there are as many of these requests as marks. -/
theorem marked_of_allowed {method : Method} {mark : Step → Bool}
    (hsince : ∀ h r, RequestAllowed h r → r.method = method → tokenOf r.path = some id →
      Since mark h) (ht : AllowedTrace Allowed t) (i : ℕ) :
    Marked (addresses method id) mark (historyOf i t) := by
  intro newer e older heq he
  obtain ⟨t₁, t₂, rfl, hpast⟩ := historyOf_eq_append heq
  obtain ⟨between, m, past, hold, hmark, hnone⟩ := since_of_addresses hsince ht rfl he
  refine ⟨between, m, past, hpast ▸ hold, hmark, fun x hx => ?_⟩
  refine Bool.eq_false_iff.mpr fun hx' => ?_
  obtain ⟨r, hcommand, -⟩ := addresses_eq_true hx'
  have hrequest := hnone x hx
  rw [isRequest, hcommand] at hrequest
  cases hrequest

theorem marks_of_addresses {method : Method} {e : Step} (h : addresses method id e = true) :
    marks id e = false ∧ revokes id e = false := by
  obtain ⟨r, hcommand, -⟩ := addresses_eq_true h
  obtain ⟨c, answer⟩ := e
  cases hcommand
  exact ⟨rfl, rfl⟩

theorem kept_of_reachable {s : State Command (fun c => Except Failure (Reply c))
    (Except Failure Answer) World} (h : (system lib).Reachable Initial s) :
    Kept s.world s.trace :=
  Contract.invariant (D := contract) (I := Kept) (fun _ => follows_of_entry)
    (fun w _ => kept_nil w) (fun _ _ _ _ _ _ hk hc hexec => hk.cons hc hexec)
    (fun _ _ _ hk hd => hk.drift hd) h

theorem allowed_of_reachable {s : State Command (fun c => Except Failure (Reply c))
    (Except Failure Answer) World} (h : (system lib).Reachable Initial s) :
    AllowedTrace Allowed s.trace :=
  Contract.allowed_of_trace (D := contract) (fun _ => follows_of_entry) h

/-- The requests of a trace for the token of an attempt, and how they follow its database. -/
structure Issuance (id : Str) (w : World) (t : Events) : Prop where
  issuedOnce : (t.countP fun e => addresses .post id e.2) ≤ 1
  deletedOnce : (t.countP fun e => addresses .delete id e.2) ≤ 1
  confirmed : ∀ newer i e older, t = newer ++ (i, e) :: older → addresses .post id e = true →
    ∃ m ∈ historyOf i older, marks id m = true ∧ ConfirmedBy id m (historyOf i older)
  revoked : ∀ newer i e older, t = newer ++ (i, e) :: older → addresses .delete id e = true →
    ∃ m ∈ historyOf i older, revokes id m = true
  cancelled : ∀ row, w.attempts id = some row → row.phase ∉ issued →
    ∀ i e, (i, e) ∈ t → addresses .post id e = false

/-- Roles and grants are requested by a call that has stored a secret, and the grants are those of
its token. -/
def GrantsFollow (t : Events) : Prop :=
  ∀ newer i r answer older, t = newer ++ (i, ⟨.request r, answer⟩) :: older →
    r.method = .put ∨ (r.method = .post ∧ r.path = ("/access/roles" : Str)) →
      ∃ tokenId, Staged tokenId (historyOf i older) ∧
        (r.method = .put → Dict.get r.data "tokens" = some (.str tokenId))

theorem grantsFollow_of_allowed (h : AllowedTrace Allowed t) : GrantsFollow t := by
  intro newer i r answer older heq hgrant
  have hallowed : RequestAllowed (historyOf i older) r := h newer i _ older heq
  rw [RequestAllowed] at hallowed
  rcases hgrant with hmethod | ⟨hmethod, hpath⟩
  · rw [hmethod] at hallowed
    obtain ⟨-, tokenId, htokens, hstaged⟩ := hallowed
    exact ⟨tokenId, hstaged, fun _ => htokens⟩
  · rw [hmethod, hpath] at hallowed
    rcases hallowed with hticket | ⟨-, tokenId, hstaged⟩ | ⟨id, hid, -⟩
    · exact absurd hticket (by decide)
    · refine ⟨tokenId, hstaged, fun hput => ?_⟩
      rw [hmethod] at hput
      cases hput
    · rw [tokenOf_roles] at hid
      cases hid

/-- However calls run, crash and fail: the token of an attempt is requested at most once, by the
call that durably marked the plan that it was told to confirm, never for an attempt that was
cancelled; it is deleted at most once, after the durable mark of its revocation; and roles and
grants are requested only after a secret is stored. -/
theorem token_issued_once {s : State Command (fun c => Except Failure (Reply c))
    (Except Failure Answer) World} (h : (system lib).Reachable Initial s) (id : Str) :
    Issuance id s.world s.trace ∧ GrantsFollow s.trace := by
  have hkept := kept_of_reachable h
  have hallowed := allowed_of_reachable h
  have hpost : ∀ newer i e older, s.trace = newer ++ (i, e) :: older →
      addresses .post id e = true → ∃ between m past, historyOf i older = between ++ m :: past ∧
        marks id m = true := by
    intro newer i e older heq he
    obtain ⟨between, m, past, hold, hmark, -⟩ :=
      since_of_addresses (fun _ _ => since_of_post) hallowed heq he
    exact ⟨between, m, past, hold, hmark⟩
  refine ⟨⟨?_, ?_, ?_, ?_, ?_⟩, grantsFollow_of_allowed hallowed⟩
  · exact countP_le_one_of_mark (marked_of_allowed (fun _ _ => since_of_post) hallowed)
      (fun e he => (marks_of_addresses he).1) (hkept.markedOnce id)
  · exact countP_le_one_of_mark (marked_of_allowed (fun _ _ => since_of_delete) hallowed)
      (fun e he => (marks_of_addresses he).2) (hkept.revokedOnce id)
  · intro newer i e older heq he
    obtain ⟨between, m, past, hold, hmark⟩ := hpost newer i e older heq he
    obtain ⟨t₁, t₂, ht, hpast⟩ := historyOf_eq_append hold
    obtain ⟨c, row, hseen, hid, hreceived⟩ := hkept.confirmed id (newer ++ (i, e) :: t₁) i m t₂
      (by rw [heq, ht, List.append_assoc, List.cons_append]) hmark
    have hmem : ∀ x ∈ historyOf i t₂, x ∈ historyOf i older := by
      intro x hx
      rw [hold]
      exact List.mem_append_right _ (List.mem_cons_of_mem _ (hpast ▸ hx))
    refine ⟨m, ?_, hmark, c, row, hseen, hid, hmem _ hreceived⟩
    rw [hold]
    exact List.mem_append_right _ List.mem_cons_self
  · intro newer i e older heq he
    obtain ⟨between, m, past, hold, hmark, -⟩ :=
      since_of_addresses (fun _ _ => since_of_delete) hallowed heq he
    refine ⟨m, ?_, hmark⟩
    rw [hold]
    exact List.mem_append_right _ List.mem_cons_self
  · intro row hrow hphase i e hmem
    refine Bool.eq_false_iff.mpr fun he => ?_
    obtain ⟨newer, older, heq⟩ := List.append_of_mem hmem
    obtain ⟨between, m, past, hold, hmark⟩ := hpost newer i e older heq he
    have hm : (i, m) ∈ s.trace := by
      rw [heq]
      refine List.mem_append_right _ (List.mem_cons_of_mem _ (mem_historyOf.mp ?_))
      rw [hold]
      exact List.mem_append_right _ List.mem_cons_self
    obtain ⟨current, hcurrent, hissued⟩ := hkept.marked id i m hm hmark
    rw [Option.some.inj (hcurrent.symm.trans hrow)] at hissued
    exact hphase hissued

/-- A stored attempt is resolved when it is over. -/
theorem settled_of_reachable {s : State Command (fun c => Except Failure (Reply c))
    (Except Failure Answer) World} (h : (system lib).Reachable Initial s) :
    ∀ id row, s.world.attempts id = some row → Settled row := by
  refine Contract.invariant (D := contract)
    (I := fun w _ => ∀ id row, w.attempts id = some row → Settled row)
    (fun _ => follows_of_entry) (fun _ hw => hw.2) ?_ ?_ h
  · intro w t i c r w' hw hc hexec id row' hrow'
    cases turn_of_exec hc hexec with
    | kept heq =>
        rw [World.attempts, heq] at hrow'
        exact hw id row' hrow'
    | @made new hnew hphase hsettled heq =>
        rw [World.attempts, heq, Function.update_apply] at hrow'
        split at hrow'
        · cases hrow'
          exact hsettled
        · exact hw id row' hrow'
    | moved old new hold hmoves heq =>
        rw [World.attempts, heq, Function.update_apply] at hrow'
        split at hrow'
        · cases hrow'
          exact hmoves.settled (hw _ old hold)
        · exact hw id row' hrow'
  · intro w t w' hw hd id row hrow
    cases hd with
    | database heq =>
        rw [World.attempts] at hrow
        dsimp only at hrow
        rw [heq] at hrow
        exact hw id row hrow
    | restart => exact hw id row hrow

/-- What a run keeps of an attempt. -/
structure Lasts (row row' : Attempt) : Prop where
  moves : Relation.ReflTransGen Moves row row'
  request : requestOf row' = requestOf row
  version : row.version ≤ row'.version
  unchanged : row'.version = row.version → row' = row
  issued : row.phase ∈ issued → row'.phase ∈ issued
  ended : row.phase ∈ [Phase.cancelled, .revoked] → row' = row
  settled : Settled row'

theorem Moves.not_over {row row' : Attempt} (h : Moves row row') :
    row.phase ∉ [Phase.cancelled, .revoked] := by
  have hphase := h.phase
  intro hover
  rcases List.mem_pair.mp hover with hover | hover <;> rw [hover] at hphase <;> cases hphase

theorem lasts_of_moves {row row' : Attempt} (h : Relation.ReflTransGen Moves row row')
    (hsettled : Settled row') : Lasts row row' := by
  have hall : requestOf row' = requestOf row ∧ row.version ≤ row'.version ∧
      (row'.version = row.version → row' = row) ∧ (row.phase ∈ issued → row'.phase ∈ issued) ∧
      (row.phase ∈ [Phase.cancelled, .revoked] → row' = row) := by
    clear hsettled
    induction h with
    | refl => exact ⟨rfl, le_refl _, fun _ => rfl, id, fun _ => rfl⟩
    | @tail mid last hmid hlast ih =>
        obtain ⟨hrequest, hversion, -, hissued, hover⟩ := ih
        have hnext := hlast.version
        refine ⟨hlast.request.trans hrequest, by omega, fun heq => by omega, fun hrow => ?_,
          fun hrow => ?_⟩
        · exact closed_issued _ (hissued hrow) _ hlast.phase
        · obtain rfl := hover hrow
          exact absurd hrow hlast.not_over
  obtain ⟨hrequest, hversion, hunchanged, hissued, hover⟩ := hall
  exact ⟨h, hrequest, hversion, hunchanged, hissued, hover, hsettled⟩

theorem moves_of_step {s s' : State Command (fun c => Except Failure (Reply c))
    (Except Failure Answer) World} (h : (system lib).Reachable Initial s)
    (hs : (system lib).Step s s') {row : Attempt} (hrow : s.world.attempts id = some row) :
    ∃ row', s'.world.attempts id = some row' ∧ Follows row row' := by
  cases hs with
  | start p hp => exact ⟨row, hrow, .inl rfl⟩
  | crash i => exact ⟨row, hrow, .inl rfl⟩
  | call i c k r hi hexec =>
      have hc : Allowed _ c :=
        Contract.allowed_of_reachable (D := contract) (fun _ => follows_of_entry) h hi
      exact follows_of_exec hc hexec hrow
  | environment hd =>
      refine ⟨row, ?_, .inl rfl⟩
      cases hd with
      | database heq => exact (congrFun (congrArg Setup.attempts heq) id).trans hrow
      | restart => exact hrow

/-- Along every run an attempt only moves along the graph of phases, one version at a time, for the
request that it was made for; a token that was requested stays requested, a cancelled or revoked
attempt changes no more, and an attempt is resolved when it is over. -/
theorem attempts_move_on {s s' : State Command (fun c => Except Failure (Reply c))
    (Except Failure Answer) World} (h : (system lib).Reachable Initial s)
    (hs : Relation.ReflTransGen (system lib).Step s s') {row : Attempt}
    (hrow : s.world.attempts id = some row) :
    ∃ row', s'.world.attempts id = some row' ∧ Lasts row row' := by
  have hmoves : ∃ row', s'.world.attempts id = some row' ∧
      Relation.ReflTransGen Moves row row' := by
    induction hs with
    | refl => exact ⟨row, hrow, .refl⟩
    | @tail u v hu huv ih =>
        obtain ⟨mid, hmid, hpath⟩ := ih
        obtain ⟨last, hlast, hfollows⟩ := moves_of_step (h.steps hu) huv hmid
        refine ⟨last, hlast, ?_⟩
        rcases hfollows with rfl | hmove
        · exact hpath
        · exact hpath.tail hmove
  obtain ⟨row', hrow', hpath⟩ := hmoves
  exact ⟨row', hrow', lasts_of_moves hpath (settled_of_reachable (h.steps hs) id row' hrow')⟩

end Runs

/-! ### A registration and its revocation -/

def plainLibrary : Library := ⟨fun _ => none, id, some⟩

/-- What Proxmox answers to a registration, and to the revocation of an active token. -/
def proxmox (w : World) (r : HttpRequest) : Value :=
  let active : Bool := (w.attempts firstAttempt).any fun row => row.phase = .active
  let token : Dict := [("tokenid", .str (tokenName firstAttempt)),
    ("comment", .str (tokenComment firstAttempt))]
  match r.method with
  | .post =>
      if r.path = "/access/ticket" then
        .dict [("username", .str clusterIntent.owner), ("ticket", .str "PVE:ticket"),
          ("CSRFPreventionToken", .str "csrf")]
      else .dict [("full-tokenid", .str (issuedTokenId clusterIntent.owner firstAttempt)),
        ("value", .str "secret")]
  | .get =>
      if r.path = "/version" then .dict [("version", .str "9.0.11")]
      else if r.path = ("/access/users/" : Str) ++ quote clusterIntent.owner then .dict []
      else if r.path = tokensPath clusterIntent.owner then
        .list (if active then [.dict token] else [])
      else .list []
  | _ => .null

/-- Answers to every command, with one transaction after the other. -/
def answer (w : World) : (c : Command) → Except Failure (Reply c) × World
  | .receive _ | .connect _ => (.ok (), w)
  | .transaction q =>
      match q.script.alone w.db with
      | .ok (a, db) => (.ok a, { w with db := db })
      | .error e => (.error e, w)
  | .get attemptId actorId => (owned attemptId actorId none w.db, w)
  | .pending site attemptId actorId =>
      match (pendingCredential site attemptId actorId).alone w.db with
      | .ok (a, _) => (.ok a, w)
      | .error e => (.error e, w)
  | .clock => (.ok 0, w)
  | .time => (.ok (-1000), w)
  | .lookup attemptId => (.ok (w.memory.contexts.lookup attemptId), w)
  | .load ref => (orRaise w.memory.objects[ref]? .integrity, w)
  | .publish attemptId ctx => (.ok (), { w with memory := w.memory.publish attemptId ctx })
  | .setPlan ref plan => (.ok (), { w with memory := w.memory.setPlan ref plan })
  | .drop attemptId => (.ok (), { w with memory := w.memory.drop attemptId })
  | .invalidate sessionId => (.ok (), { w with memory := w.memory.invalidate sessionId })
  | .limit actorId =>
      ((w.memory.limit 0 actorId).1, { w with memory := (w.memory.limit 0 actorId).2 })
  | .request r => (.ok (proxmox w r), w)
  | .getenv => (.ok ⟨[], [], [], []⟩, w)

theorem ends_of_alone {α : Type} {script : Transaction α} {s s' : SetupDb} {a : α}
    (h : script.alone s = .ok (a, s')) :
    ∃ t, Ends Beside script (Txn.start s) a t ∧ t.base = s ∧ t.view = s' := by
  obtain ⟨held, hrun⟩ := runs_of_alone false (fun view held => Beside.refl ⟨s, view, held⟩) h
  exact ⟨_, ⟨_, hrun, Beside.refl _⟩, rfl, rfl⟩

theorem exec_answer (w : World) (c : Command) : Exec w c (answer w c).1 (answer w c).2 := by
  cases c with
  | transaction q =>
      cases halone : q.script.alone w.db with
      | error e =>
          simp only [answer, halone]
          exact .failed e
      | ok r =>
          obtain ⟨t, hends, hbase, hview⟩ := ends_of_alone halone
          simp only [answer, halone]
          exact hview ▸ .done hends hbase
  | pending site attemptId actorId =>
      cases halone : (pendingCredential site attemptId actorId).alone w.db with
      | error e =>
          simp only [answer, halone]
          exact ⟨nofun, rfl⟩
      | ok r =>
          obtain ⟨t, hends, hbase, -⟩ := ends_of_alone halone
          simp only [answer, halone]
          refine ⟨fun a ha => ?_, rfl⟩
          cases ha
          exact ⟨_, t, hends, hbase⟩
  | load ref =>
      refine ⟨fun ctx hctx => ?_, rfl⟩
      rw [Option.mem_def] at hctx
      simp only [answer, hctx]
      rfl
  | get attemptId actorId => exact ⟨.inl rfl, rfl⟩
  | clock => exact ⟨⟨0, rfl⟩, rfl⟩
  | time => exact ⟨⟨-1000, rfl⟩, rfl⟩
  | limit actorId => exact ⟨0, rfl, rfl⟩
  | receive call => exact ⟨rfl, rfl⟩
  | lookup attemptId => exact ⟨rfl, rfl⟩
  | publish attemptId ctx => exact ⟨rfl, rfl⟩
  | setPlan ref plan => exact ⟨rfl, rfl⟩
  | drop attemptId => exact ⟨rfl, rfl⟩
  | invalidate sessionId => exact ⟨rfl, rfl⟩
  | connect t => rfl
  | request r => rfl
  | getenv => rfl

def caller (version : ℕ) : Caller := ⟨firstAttempt, "u", "session", version⟩

/-- A registration until its token is active, and the revocation of the token. -/
def calls : List Call :=
  [.prepare ⟨clusterIntent, "key-00001", ⟨"u", "u", "admin"⟩, "inst", "lab"⟩,
    .login (caller 1) "password" none, .plan (caller 2), .confirm (caller 3) "aa",
    .activate (caller 8), .login (caller 10) "password" none,
    .revoke (caller 10) (issuedTokenId clusterIntent.owner firstAttempt)]

/-- The calls before the first command. -/
def calling : State Command (fun c => Except Failure (Reply c)) (Except Failure Answer) World :=
  ⟨⟨{}, {}⟩, calls.zipIdx.map fun x =>
    (programOf plainLibrary (fun i => callSite (10 * x.2 + i)) x.1).run, []⟩

/-- One call after the other from the `n`th on. -/
def playFrom (n : ℕ) (s : State Command (fun c => Except Failure (Reply c)) (Except Failure Answer)
    World) (m : ℕ) :
    State Command (fun c => Except Failure (Reply c)) (Except Failure Answer) World :=
  System.playAllWhere answer (fun _ _ _ _ => True)
    ((List.range m).map fun i => (n + i, 60)) s

def prepared : State Command (fun c => Except Failure (Reply c)) (Except Failure Answer) World :=
  playFrom 0 calling 1

def revoked : State Command (fun c => Except Failure (Reply c)) (Except Failure Answer) World :=
  playFrom 1 prepared 6

theorem steps_playFrom (n m : ℕ) (s : State Command (fun c => Except Failure (Reply c))
    (Except Failure Answer) World) :
    Relation.ReflTransGen (system plainLibrary).Step s (playFrom n s m) :=
  System.steps_of_where (System.steps_playAllWhere exec_answer _ _)

theorem reachable_prepared : (system plainLibrary).Reachable Initial prepared := by
  have hinitial : Initial ⟨{}, {}⟩ := ⟨rfl, fun id row hrow => by cases hrow⟩
  have hcalling : (system plainLibrary).Reachable Initial calling := by
    refine System.reachable_programs hinitial _ fun p hp => ?_
    obtain ⟨x, -, rfl⟩ := List.mem_map.mp hp
    exact ⟨_, _, rfl⟩
  exact hcalling.steps (steps_playFrom 0 1 calling)

theorem reachable_revoked : (system plainLibrary).Reachable Initial revoked :=
  reachable_prepared.steps (steps_playFrom 1 6 prepared)

theorem token_issued_once_of_revocation : ∃ s, (system plainLibrary).Reachable Initial s ∧
    (Issuance firstAttempt s.world s.trace ∧ GrantsFollow s.trace) ∧
    (s.trace.countP fun e => addresses .post firstAttempt e.2) = 1 ∧
    (s.trace.countP fun e => addresses .delete firstAttempt e.2) = 1 := by
  have h : ((revoked.trace.countP fun e => addresses .post firstAttempt e.2),
      (revoked.trace.countP fun e => addresses .delete firstAttempt e.2)) = (1, 1) := by
    decide +kernel
  rw [Prod.mk.injEq] at h
  exact ⟨revoked, reachable_revoked, token_issued_once reachable_revoked firstAttempt, h⟩

theorem attempts_move_on_to_revocation : ∃ s s' row row',
    (system plainLibrary).Reachable Initial s ∧
    Relation.ReflTransGen (system plainLibrary).Step s s' ∧
    s.world.attempts firstAttempt = some row ∧ s'.world.attempts firstAttempt = some row' ∧
    Lasts row row' ∧ row.phase = .prepared ∧ row'.phase = .revoked := by
  have h : ((prepared.world.attempts firstAttempt).map Attempt.phase,
      (revoked.world.attempts firstAttempt).map Attempt.phase) =
        (some .prepared, some .revoked) := by
    decide +kernel
  rw [Prod.mk.injEq, Option.map_eq_some_iff, Option.map_eq_some_iff] at h
  obtain ⟨⟨row, hrow, hphase⟩, last, hlast, hphase'⟩ := h
  have hsteps := steps_playFrom 1 6 prepared
  obtain ⟨row', hrow', hlasts⟩ := attempts_move_on reachable_prepared hsteps hrow
  obtain rfl : last = row' := Option.some.inj (hlast.symm.trans hrow')
  exact ⟨prepared, revoked, row, last, reachable_prepared, hsteps, hrow, hlast, hlasts, hphase,
    hphase'⟩

end Gjallar.RegistrationService

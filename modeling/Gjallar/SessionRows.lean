import Gjallar.AccountRuns

/-!
# How session rows age

A session keeps its user and its expiry, and a revoked one stays revoked: in the committed rows and
in what every transaction sees.
-/
namespace Gjallar.Accounts

open Gjallar.Text Gjallar.Operation Gjallar.ReadCommitted

/-- A later version of a session row. -/
structure Later (x y : SessionRecord) : Prop where
  user : y.userId = x.userId
  expiry : y.expiresAt = x.expiresAt
  revoked : x.revokedAt ≠ none → y.revokedAt ≠ none

theorem Later.refl (x : SessionRecord) : Later x x := ⟨rfl, rfl, id⟩

theorem Later.trans {x y z : SessionRecord} (h₁ : Later x y) (h₂ : Later y z) : Later x z :=
  ⟨h₂.user.trans h₁.user, h₂.expiry.trans h₁.expiry, fun h => h₂.revoked (h₁.revoked h)⟩

theorem later_revoked (x : SessionRecord) (at' : Instant) :
    Later x { x with revokedAt := some at' } := ⟨rfl, rfl, fun _ => by simp⟩

/-- Every session is still there, in a later version. -/
def Grows (rows rows' : AccountRows) : Prop :=
  ∀ id x, sessionOf rows id = some x → ∃ y, sessionOf rows' id = some y ∧ Later x y

theorem Grows.refl (rows : AccountRows) : Grows rows rows := fun _ x hx => ⟨x, hx, .refl x⟩

/-- What a transaction has written of a session is later than the committed row. -/
def Ageing (s : AccountStore) : Prop :=
  ∀ t u y, s.txns t = some u → .session y ∈ u.writes →
    ∀ x, sessionOf s.rows y.sessionId = some x → Later x y

section Rows

variable {s : AccountStore} {t : ℕ} {u : Txn Row Key} {id : Str}

/-- A session a transaction sees is one it has written, or the committed row. -/
theorem sessionOf_visible (ht : s.txns t = some u) {x : SessionRecord}
    (hx : sessionOf (s.visible t) id = some x) :
    (.session x ∈ u.writes ∧ x.sessionId = id) ∨
      ((u.writes.find? fun r => r.key = .session id) = none ∧ sessionOf s.rows id = some x) := by
  rw [sessionOf_eq_some, get_visible ht] at hx
  cases hfound : u.writes.find? fun r => r.key = .session id with
  | none =>
      rw [hfound, Option.none_or] at hx
      exact .inr ⟨rfl, sessionOf_eq_some.mpr hx⟩
  | some v =>
      rw [hfound, Option.some_or] at hx
      cases hx
      have hkey : (Row.session x).key = .session id := by simpa using List.find?_some hfound
      exact .inl ⟨List.mem_of_find?_eq_some hfound, Key.session.inj hkey⟩

/-- What a transaction sees of a session it has not written. -/
theorem sessionOf_visible_of_none (ht : s.txns t = some u)
    (hnone : (u.writes.find? fun r => r.key = .session id) = none) :
    sessionOf (s.visible t) id = sessionOf s.rows id := by
  rw [sessionOf, get_visible ht, hnone, Option.none_or, sessionOf]

/-- What a transaction sees is later than what is committed. -/
theorem Ageing.grows_visible (h : Ageing s) (t : ℕ) : Grows s.rows (s.visible t) := by
  intro id x hx
  cases ht : s.txns t with
  | none => exact ⟨x, by rwa [visible_of_none ht], .refl x⟩
  | some u =>
      cases hfound : u.writes.find? fun r => r.key = .session id with
      | none => exact ⟨x, by rwa [sessionOf_visible_of_none ht hfound], .refl x⟩
      | some v =>
          have hkey : v.key = .session id := by simpa using List.find?_some hfound
          cases v with
          | user v => cases hkey
          | session y =>
              have hid : y.sessionId = id := Key.session.inj hkey
              refine ⟨y, ?_, h t u y ht (List.mem_of_find?_eq_some hfound) x (hid ▸ hx)⟩
              rw [sessionOf_eq_some, get_visible ht, hfound, Option.some_or]

/-- A statement revokes a session its transaction sees, or adds one it does not see. -/
theorem session_of_writes {c : Command} {y : SessionRecord} (hw : Writes s t c (.session y)) :
    (∃ x, sessionOf (s.visible t) y.sessionId = some x ∧ Later x y ∧ y.revokedAt ≠ none) ∨
      (c = .insertSession t y ∧ sessionOf (s.visible t) y.sessionId = none) := by
  cases hw with
  | @revoke r id row hrow hselects =>
      have hid : row.sessionId = id := sessionId_of_sessionOf hrow
      exact .inl ⟨row, hid ▸ hrow, later_revoked _ _, by simp⟩
  | issue hnone => exact .inr ⟨rfl, hnone⟩
  | @mark id revokedAt row hrow =>
      have hid : row.sessionId = id := sessionId_of_sessionOf hrow
      exact .inl ⟨row, hid ▸ hrow, later_revoked _ _, by simp⟩

/-- A version that a statement writes is later than the one its transaction sees. -/
theorem later_of_writes {c : Command} {x y : SessionRecord} (hw : Writes s t c (.session y))
    (hx : sessionOf (s.visible t) y.sessionId = some x) : Later x y := by
  rcases session_of_writes hw with ⟨z, hz, hlater, -⟩ | ⟨-, hnone⟩
  · rw [hx] at hz
    cases hz
    exact hlater
  · rw [hx] at hnone
    cases hnone

/-- What a transaction sees after it has written. -/
theorem get_visible_grab {k : Key} {versions : List Row} (ht : s.txns t = some u) (k' : Key) :
    ((s.grab t k versions).visible t).get k' =
      (versions.find? fun r => r.key = k').or ((s.visible t).get k') := by
  have htxn : (s.grab t k versions).txns t = some ⟨k :: u.locks, versions ++ u.writes⟩ := by
    rw [Store.txns_grab, if_pos rfl, ht]
    rfl
  rw [get_visible htxn, get_visible ht, Store.rows_grab, List.find?_append, Option.or_assoc]

theorem visible_grab_of_ne {k : Key} {versions : List Row} {t' : ℕ} (hne : t' ≠ t) :
    (s.grab t k versions).visible t' = s.visible t' := by
  rw [Store.visible, Store.visible, Store.rows_grab, Store.txns_grab, if_neg hne]

end Rows

/-- Later versions are written, and in what is committed and what a transaction sees sessions only
grow older. -/
structure Ages (s s' : AccountStore) : Prop where
  ageing : Ageing s'
  rows : Grows s.rows s'.rows
  visible : ∀ t, (s.txns t).isSome = true → (s'.txns t).isSome = true →
    Grows (s.visible t) (s'.visible t)

theorem ages_start {s : AccountStore} (hd : s.Disciplined) (ha : Ageing s) : Ages s s.start := by
  have hold : ∀ {t}, (s.txns t).isSome = true → s.start.txns t = s.txns t := by
    intro t ht
    obtain ⟨u, hu⟩ := Option.isSome_iff_exists.mp ht
    rw [Store.txns_start, if_neg (Nat.ne_of_lt (hd.numbered t u hu))]
  refine ⟨fun t u y hu hy x hx => ?_, .refl _, fun t ht _ => ?_⟩
  · rw [Store.txns_start] at hu
    split at hu
    · cases hu
      cases hy
    · exact ha t u y hu hy x hx
  · have hsame : s.start.visible t = s.visible t := by
      rw [Store.visible, Store.visible, hold ht]
      rfl
    rw [hsame]
    exact .refl _

theorem ages_grab {s : AccountStore} {t : ℕ} {k : Key} {c : Command} {versions : List Row}
    (hwrites : ∀ v ∈ versions, Writes s t c v) (ha : Ageing s) : Ages s (s.grab t k versions) := by
  refine ⟨fun t' u y hu hy x hx => ?_, ?_, fun t' ht' _ id x hx => ?_⟩
  · rw [Store.rows_grab] at hx
    rw [Store.txns_grab] at hu
    split at hu
    · rename_i heq
      obtain ⟨u₀, hu₀, rfl⟩ := Option.map_eq_some_iff.mp hu
      rcases List.mem_append.mp hy with hy | hy
      · obtain ⟨z, hz, hlater⟩ := ha.grows_visible t _ x hx
        exact hlater.trans (later_of_writes (hwrites _ hy) hz)
      · exact ha t u₀ y hu₀ hy x hx
    · exact ha t' u y hu hy x hx
  · rw [Store.rows_grab]
    exact .refl _
  · by_cases hne : t' = t
    · subst hne
      obtain ⟨u, hu⟩ := Option.isSome_iff_exists.mp ht'
      cases hfound : versions.find? fun r => r.key = .session id with
      | none =>
          refine ⟨x, ?_, .refl x⟩
          rwa [sessionOf, get_visible_grab hu, hfound, Option.none_or, ← sessionOf]
      | some v =>
          have hkey : v.key = .session id := by simpa using List.find?_some hfound
          have hv := hwrites v (List.mem_of_find?_eq_some hfound)
          cases v with
          | user v => cases hkey
          | session y =>
              have hid : y.sessionId = id := Key.session.inj hkey
              refine ⟨y, ?_, later_of_writes hv (hid ▸ hx)⟩
              rw [sessionOf_eq_some, get_visible_grab hu, hfound, Option.some_or]
    · rw [visible_grab_of_ne hne]
      exact ⟨x, hx, .refl x⟩

theorem ages_abort {s : AccountStore} (t : ℕ) (ha : Ageing s) : Ages s (s.abort t) := by
  refine ⟨fun t' u y hu hy x hx => ?_, .refl _, fun t' _ ht' => ?_⟩
  · rw [Store.txns_abort] at hu
    split at hu
    · cases hu
    · exact ha t' u y hu hy x hx
  · have hsame : (s.abort t).visible t' = s.visible t' := by
      rw [Store.txns_abort] at ht'
      split at ht'
      · cases ht'
      · rename_i hne
        rw [Store.visible, Store.visible, Store.txns_abort, if_neg hne]
        rfl
    rw [hsame]
    exact .refl _

theorem ages_commit {s : AccountStore} (t : ℕ) (hd : s.Disciplined) (ha : Ageing s) :
    Ages s (s.commit t) := by
  have hrows : (s.commit t).rows = s.visible t := rfl
  have hold : ∀ {t' u}, (s.commit t).txns t' = some u → t' ≠ t ∧ s.txns t' = some u := by
    intro t' u hu
    rw [Store.txns_commit] at hu
    split at hu
    · cases hu
    · rename_i hne
      exact ⟨hne, hu⟩
  refine ⟨fun t' u y hu hy x hx => ?_, ha.grows_visible t, fun t' _ ht' id x hx => ?_⟩
  · obtain ⟨hne, hu⟩ := hold hu
    have hlock := hd.locked t' u (.session y) hu hy
    have hsame := Store.get_commit_of_locked hd hu hlock hne
    refine ha t' u y hu hy x ?_
    rw [sessionOf_eq_some] at hx ⊢
    exact hsame ▸ hx
  · obtain ⟨u, hu'⟩ := Option.isSome_iff_exists.mp ht'
    obtain ⟨hne, hu⟩ := hold hu'
    cases hfound : u.writes.find? fun r => r.key = .session id with
    | none =>
        rw [sessionOf_visible_of_none hu hfound] at hx
        rw [sessionOf_visible_of_none hu' hfound, hrows]
        exact ha.grows_visible t id x hx
    | some v =>
        refine ⟨x, ?_, .refl x⟩
        rw [sessionOf, get_visible hu, hfound, Option.some_or] at hx
        rw [sessionOf, get_visible hu', hfound, Option.some_or]
        exact hx

theorem Effect.ages {s s' : AccountStore} {c : Command} {r : Except AuthError (Reply c)}
    (h : Effect s c r s') (hd : s.Disciplined) (ha : Ageing s) : Ages s s' := by
  cases h with
  | nothing => exact ⟨ha, .refl _, fun t _ _ => .refl _⟩
  | start => exact ages_start hd ha
  | grab _ _ _ hwrites => exact ages_grab hwrites ha
  | rollback => exact ages_abort _ ha
  | commit => exact ages_commit _ hd ha

end Gjallar.Accounts

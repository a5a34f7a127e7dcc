import Mathlib.Data.List.Nodup

/-!
# Interleaved transactions

A script is the statements of one transaction in order. Alone it is a function of the database.
Among others it runs on two databases, the committed one and its own view of it, and between two
of its statements an environment changes both: other transactions commit, rows that this one wrote
stay as it wrote them, and every other row of the view is as committed. A script can take a lock
that it keeps until it ends; the environment sees whether it is held.
-/
namespace Gjallar.Transactions

inductive Script (σ ε α : Type) : Type 1
  | done (a : α)
  | fail (e : ε)
  | statement {β : Type} (f : σ → Except ε (β × σ)) (k : β → Script σ ε α)
  | lock (k : Script σ ε α)

variable {σ ε α β : Type}

namespace Script

def bind : Script σ ε α → (α → Script σ ε β) → Script σ ε β
  | .done a, f => f a
  | .fail e, _ => .fail e
  | .statement g k, f => .statement g fun b => bind (k b) f
  | .lock k, f => .lock (bind k f)

instance : Monad (Script σ ε) where
  pure := .done
  bind := bind

/-- One statement. -/
def exec (f : σ → Except ε (α × σ)) : Script σ ε α := .statement f .done

/-- A statement that only reads. -/
def check (f : σ → Except ε α) : Script σ ε α := exec fun db => (f db).map fun a => (a, db)

/-- A query that cannot fail. -/
def query (f : σ → α) : Script σ ε α := check fun db => .ok (f db)

/-- A computation without the database. -/
def lift : Except ε α → Script σ ε α
  | .ok a => .done a
  | .error e => .fail e

/-- Take the lock. -/
def takeLock : Script σ ε Unit := .lock (.done ())

/-- The transaction when no other commits between its statements. -/
def alone : Script σ ε α → σ → Except ε (α × σ)
  | .done a, db => .ok (a, db)
  | .fail e, _ => .error e
  | .statement f k, db => f db >>= fun r => (k r.1).alone r.2
  | .lock k, db => k.alone db

theorem alone_bind (s : Script σ ε α) (f : α → Script σ ε β) (db : σ) :
    (s >>= f).alone db = s.alone db >>= fun r => (f r.1).alone r.2 := by
  induction s generalizing db with
  | done a => rfl
  | fail e => rfl
  | statement g k ih =>
      show (g db >>= fun r => (k r.1 >>= f).alone r.2) = _
      rw [alone]
      cases g db with
      | error e => rfl
      | ok r => exact ih r.1 r.2
  | lock k ih => exact ih db

@[simp] theorem alone_pure (a : α) (db : σ) :
    (pure a : Script σ ε α).alone db = .ok (a, db) := rfl

@[simp] theorem alone_exec (f : σ → Except ε (α × σ)) (db : σ) : (exec f).alone db = f db := by
  show (f db >>= fun r => Except.ok (r.1, r.2)) = f db
  cases f db with
  | error e => rfl
  | ok r => rfl

theorem alone_exec_bind (g : σ → Except ε (α × σ)) (f : α → Script σ ε β) (db : σ) :
    (exec g >>= f).alone db = g db >>= fun r => (f r.1).alone r.2 := rfl

theorem alone_check_bind (g : σ → Except ε α) (f : α → Script σ ε β) (db : σ) :
    (check g >>= f).alone db = g db >>= fun a => (f a).alone db := by
  show ((g db).map (fun a => (a, db)) >>= fun r => (f r.1).alone r.2) = _
  cases g db with
  | error e => rfl
  | ok a => rfl

theorem alone_query_bind (g : σ → α) (f : α → Script σ ε β) (db : σ) :
    (query g >>= f).alone db = (f (g db)).alone db := rfl

theorem alone_lift_bind (x : Except ε α) (f : α → Script σ ε β) (db : σ) :
    (lift x >>= f).alone db = x >>= fun a => (f a).alone db := by
  cases x with
  | error e => rfl
  | ok a => rfl

theorem alone_takeLock_bind (f : Unit → Script σ ε β) (db : σ) :
    (takeLock >>= f).alone db = (f ()).alone db := rfl

end Script

/-- A transaction that has not ended. -/
structure Txn (σ : Type) where
  /-- What is committed. -/
  base : σ
  /-- What the transaction sees. -/
  view : σ
  held : Bool

/-- A transaction that begins. -/
def Txn.start (db : σ) : Txn σ := ⟨db, db, false⟩

section Runs

variable (E : Txn σ → Txn σ → Prop)

/-- Runs of a script among other transactions. -/
inductive Runs : Script σ ε α → Txn σ → Except ε α → Txn σ → Prop
  | done (a : α) (t : Txn σ) : Runs (.done a) t (.ok a) t
  | fail (e : ε) (t : Txn σ) : Runs (.fail e) t (.error e) t
  | statement {β : Type} {f : σ → Except ε (β × σ)} {k : β → Script σ ε α} {t u t' : Txn σ}
      {b : β} {db : σ} {r : Except ε α} (henv : E t u) (hf : f u.view = .ok (b, db))
      (hrest : Runs (k b) { u with view := db } r t') : Runs (.statement f k) t r t'
  | refused {β : Type} {f : σ → Except ε (β × σ)} {k : β → Script σ ε α} {t u : Txn σ} {e : ε}
      (henv : E t u) (hf : f u.view = .error e) : Runs (.statement f k) t (.error e) u
  | lock {k : Script σ ε α} {t u t' : Txn σ} {r : Except ε α} (henv : E t u)
      (hrest : Runs k { u with held := true } r t') : Runs (.lock k) t r t'

/-- A transaction that ran to its end: what it answers, what the others had committed when it
ended, and what is committed then. An exception rolls it back. -/
inductive Commits (s : Script σ ε α) (start : Txn σ) : Except ε α → σ → σ → Prop
  | commit {t u : Txn σ} {a : α} (hrun : Runs E s start (.ok a) t) (henv : E t u) :
      Commits s start (.ok a) u.base u.view
  | rollback {t u : Txn σ} {e : ε} (hrun : Runs E s start (.error e) t) (henv : E t u) :
      Commits s start (.error e) u.base u.base

variable {E} {t t' : Txn σ}

/-- A transaction that raises leaves nothing behind. -/
theorem Commits.error {s : Script σ ε α} {start : Txn σ} {e : ε} {base db : σ}
    (h : Commits E s start (.error e) base db) : db = base := by
  cases h with
  | rollback _ _ => rfl

theorem runs_pure_ok {a b : α} (h : Runs E (pure a : Script σ ε α) t (.ok b) t') :
    a = b ∧ t' = t := by
  cases h with
  | done _ _ => exact ⟨rfl, rfl⟩

theorem runs_lift_ok {x : Except ε α} {a : α}
    (h : Runs E (Script.lift x : Script σ ε α) t (.ok a) t') : x = .ok a ∧ t' = t := by
  cases x with
  | error e => cases h
  | ok b =>
      cases h with
      | done _ _ => exact ⟨rfl, rfl⟩

theorem runs_bind_ok {s : Script σ ε α} {f : α → Script σ ε β} {b : β}
    (h : Runs E (s >>= f) t (.ok b) t') :
    ∃ a u, Runs E s t (.ok a) u ∧ Runs E (f a) u (.ok b) t' := by
  induction s generalizing t with
  | done a => exact ⟨a, t, .done a t, h⟩
  | fail e => cases h
  | statement g k ih =>
      cases h with
      | statement henv hg hrest =>
          obtain ⟨a, u, hs, hf⟩ := ih _ hrest
          exact ⟨a, u, .statement henv hg hs, hf⟩
  | lock k ih =>
      cases h with
      | lock henv hrest =>
          obtain ⟨a, u, hs, hf⟩ := ih hrest
          exact ⟨a, u, .lock henv hs, hf⟩

theorem runs_exec_ok {f : σ → Except ε (α × σ)} {a : α}
    (h : Runs E (Script.exec f) t (.ok a) t') :
    ∃ u db, E t u ∧ f u.view = .ok (a, db) ∧ t' = { u with view := db } := by
  cases h with
  | statement henv hf hrest =>
      cases hrest with
      | done _ _ => exact ⟨_, _, henv, hf, rfl⟩

theorem runs_check_ok {f : σ → Except ε α} {a : α}
    (h : Runs E (Script.check f) t (.ok a) t') : E t t' ∧ f t'.view = .ok a := by
  obtain ⟨u, db, henv, hf, rfl⟩ := runs_exec_ok h
  cases hv : f u.view with
  | error e =>
      rw [hv] at hf
      cases hf
  | ok b =>
      rw [hv] at hf
      cases hf
      exact ⟨henv, hv⟩

theorem runs_query_ok {f : σ → α} {a : α}
    (h : Runs E (Script.query f : Script σ ε α) t (.ok a) t') : E t t' ∧ f t'.view = a := by
  obtain ⟨henv, hf⟩ := runs_check_ok h
  exact ⟨henv, Except.ok.inj hf⟩

theorem runs_takeLock_ok {u : Unit} (h : Runs E (Script.takeLock : Script σ ε Unit) t (.ok u) t') :
    ∃ v, E t v ∧ t' = { v with held := true } := by
  cases h with
  | lock henv hrest =>
      cases hrest with
      | done _ _ => exact ⟨_, henv, rfl⟩

/-- What a transaction does alone it also does where the others do nothing. -/
theorem runs_of_alone {s : Script σ ε α} {base view db : σ} {a : α} (held : Bool)
    (hE : ∀ view held, E ⟨base, view, held⟩ ⟨base, view, held⟩) (h : s.alone view = .ok (a, db)) :
    ∃ held', Runs E s ⟨base, view, held⟩ (.ok a) ⟨base, db, held'⟩ := by
  induction s generalizing view held with
  | done b =>
      cases h
      exact ⟨held, .done _ _⟩
  | fail e => cases h
  | statement f k ih =>
      rw [Script.alone] at h
      cases hf : f view with
      | error e =>
          rw [hf] at h
          cases h
      | ok r =>
          rw [hf] at h
          obtain ⟨held', hrun⟩ := ih r.1 held h
          exact ⟨held', .statement (hE view held) hf hrun⟩
  | lock k ih =>
      obtain ⟨held', hrun⟩ := ih true h
      exact ⟨held', .lock (hE view held) hrun⟩

/-- What the others preserve is preserved. -/
theorem Runs.base {P : σ → Prop} (hE : ∀ t t', E t t' → P t.base → P t'.base)
    {s : Script σ ε α} {r : Except ε α} (h : Runs E s t r t') (hP : P t.base) : P t'.base := by
  induction h with
  | done a t => exact hP
  | fail e t => exact hP
  | @statement _ _ _ _ u _ _ _ _ henv _ _ ih => exact ih (hE _ u henv hP)
  | refused henv _ => exact hE _ _ henv hP
  | @lock _ _ u _ _ henv _ ih => exact ih (hE _ u henv hP)

end Runs

/-! ### The rows of one table -/

section Rows

variable {κ ρ : Type}

/-- How the rows of a table by key, committed and seen, change while others commit: a row that the
transaction wrote stays, any other is seen as committed. -/
structure Overlay (base view base' view' : κ → Option ρ) : Prop where
  seen : ∀ k, view k = base k → view' k = base' k
  kept : ∀ k, view k ≠ base k → view' k = view k ∧ base' k = base k

/-- The view has exactly these rows besides the committed ones. -/
structure Adds (key : ρ → κ) (rows : List ρ) (base view : κ → Option ρ) : Prop where
  nodup : (rows.map key).Nodup
  new : ∀ r ∈ rows, base (key r) = none ∧ view (key r) = some r
  same : ∀ k, (∀ r ∈ rows, key r ≠ k) → view k = base k

variable {key : ρ → κ} {rows : List ρ} {base view base' view' base'' view'' : κ → Option ρ}

theorem Overlay.refl (base view : κ → Option ρ) : Overlay base view base view :=
  ⟨fun _ h => h, fun _ _ => ⟨rfl, rfl⟩⟩

theorem Overlay.trans (h : Overlay base view base' view') (h' : Overlay base' view' base'' view'') :
    Overlay base view base'' view'' := by
  refine ⟨fun k hk => h'.seen k (h.seen k hk), fun k hk => ?_⟩
  obtain ⟨hview, hbase⟩ := h.kept k hk
  obtain ⟨hview', hbase'⟩ := h'.kept k (by rwa [hview, hbase])
  exact ⟨hview'.trans hview, hbase'.trans hbase⟩

/-- What others leave alone is seen as before. -/
theorem Overlay.view_eq (h : Overlay base view base' view') (hbase : base' = base) :
    view' = view := by
  funext k
  by_cases hk : view k = base k
  · rw [h.seen k hk, hbase, hk]
  · exact (h.kept k hk).1

theorem Adds.refl (key : ρ → κ) (rows : κ → Option ρ) : Adds key [] rows rows :=
  ⟨List.nodup_nil, by simp, fun _ _ => rfl⟩

/-- What a transaction has added stays as it is while others commit. -/
theorem Adds.overlay (h : Adds key rows base view) (ho : Overlay base view base' view') :
    Adds key rows base' view' := by
  refine ⟨h.nodup, fun r hr => ?_, fun k hk => ho.seen k (h.same k hk)⟩
  obtain ⟨hb, hv⟩ := h.new r hr
  have hne : view (key r) ≠ base (key r) := by rw [hb, hv]; simp
  obtain ⟨hv', hb'⟩ := ho.kept _ hne
  exact ⟨hb'.trans hb, hv'.trans hv⟩

/-- A new row is one more. -/
theorem Adds.append (h : Adds key rows base view) {r : ρ} (hnone : view (key r) = none)
    (hself : view' (key r) = some r) (hother : ∀ k, key r ≠ k → view' k = view k) :
    Adds key (rows ++ [r]) base view' := by
  have hfresh : ∀ s ∈ rows, key s ≠ key r := by
    intro s hs heq
    have hv := (h.new s hs).2
    rw [heq, hnone] at hv
    cases hv
  constructor
  · rw [List.map_append, List.nodup_append]
    refine ⟨h.nodup, by simp, fun k hk l hl => ?_⟩
    obtain ⟨s, hs, rfl⟩ := List.mem_map.mp hk
    simp only [List.map_cons, List.map_nil, List.mem_singleton] at hl
    exact hl ▸ hfresh s hs
  · intro s hs
    rcases List.mem_append.mp hs with hs | hs
    · obtain ⟨hb, hv⟩ := h.new s hs
      exact ⟨hb, (hother _ fun heq => hfresh s hs heq.symm).trans hv⟩
    · obtain rfl := List.mem_singleton.mp hs
      exact ⟨(h.same _ hfresh).symm.trans hnone, hself⟩
  · intro k hk
    have hr := hk r (by simp)
    rw [hother k hr]
    exact h.same k fun s hs => hk s (by simp [hs])

/-- An added row that is written again is still the one row added for its key. -/
theorem Adds.replace {pre post : List ρ} {s r : ρ} (h : Adds key (pre ++ s :: post) base view)
    (hk : key r = key s) (hself : view' (key r) = some r)
    (hother : ∀ k, key r ≠ k → view' k = view k) : Adds key (pre ++ r :: post) base view' := by
  have hmap : (pre ++ r :: post).map key = (pre ++ s :: post).map key := by simp [hk]
  have hnodup : ((pre ++ r :: post).map key).Nodup := hmap ▸ h.nodup
  constructor
  · exact hnodup
  · intro u hu
    by_cases hur : key r = key u
    · have hru : u = r := List.inj_on_of_nodup_map hnodup hu (by simp) hur.symm
      rw [hru]
      exact ⟨hk ▸ (h.new s (by simp)).1, hself⟩
    · have hmem : u ∈ pre ++ s :: post := by
        simp only [List.mem_append, List.mem_cons] at hu ⊢
        rcases hu with hu | rfl | hu
        · exact .inl hu
        · exact absurd rfl hur
        · exact .inr (.inr hu)
      obtain ⟨hb, hv⟩ := h.new u hmem
      exact ⟨hb, (hother _ hur).trans hv⟩
  · intro k hall
    rw [hother k (hall r (by simp))]
    refine h.same k fun u hu heq => ?_
    have hmem : key u ∈ (pre ++ r :: post).map key := hmap ▸ List.mem_map_of_mem hu
    obtain ⟨v, hv, hvu⟩ := List.mem_map.mp hmem
    exact hall v hv (hvu.trans heq)

end Rows

end Gjallar.Transactions

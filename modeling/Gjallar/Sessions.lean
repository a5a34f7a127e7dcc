import Gjallar.ReadCommitted
import Gjallar.Runs

/-!
# Sessions over a read-committed store

Processes that work on a store in numbered transactions: reads, locking reads, advisory locks,
insertions and updates, under unique indexes and foreign keys. A statement that waits for a lock has
no effect until it is granted. The lock that a foreign key takes on the row it refers to is left
out, so a referring row may be added sooner here than in a database.
-/
namespace Gjallar.Sessions

open Gjallar.ReadCommitted Gjallar.Processes Gjallar.Processes.Fallible

/-- A statement of a numbered transaction, or a command that leaves the store alone. -/
inductive Command (α κ X : Type) where
  | outside (x : X)
  | start
  | commit (t : ℕ)
  | rollback (t : ℕ)
  | get (t : ℕ) (k : κ)
  | select (t : ℕ) (p : α → Bool)
  /-- `SELECT … FOR UPDATE` of one row. -/
  | lock (t : ℕ) (k : κ)
  /-- `SELECT … FOR UPDATE SKIP LOCKED` of one row. -/
  | tryLock (t : ℕ) (k : κ)
  /-- An advisory lock that is held until the transaction ends. -/
  | hold (t : ℕ) (k : κ)
  | insert (t : ℕ) (r : α)
  /-- Write back a row that was loaded. -/
  | update (t : ℕ) (r : α)

variable {α κ X : Type} {key : α → κ} {A : X → Type} {ε O : Type}

/-- An insertion or an update answers whether it keeps the constraints. -/
abbrev Reply (A : X → Type) : Command α κ X → Type
  | .outside x => A x
  | .start => ℕ
  | .get .. | .lock .. | .tryLock .. => Option α
  | .select .. => List α
  | .insert .. | .update .. => Bool
  | .commit _ | .rollback _ | .hold .. => Unit

/-- The transaction of a statement. -/
def Command.txn : Command α κ X → Option ℕ
  | .outside _ | .start => none
  | .commit t | .rollback t | .get t _ | .select t _ | .lock t _ | .tryLock t _ | .hold t _
  | .insert t _ | .update t _ => some t

def Command.isOutside : Command α κ X → Bool
  | .outside _ => true
  | _ => false

/-- The unique indexes, as the pairs of rows that violate one, and the foreign keys. -/
structure Schema (α κ : Type) where
  clash : α → α → Bool
  refers : α → List κ := fun _ => []

/-- What the commands that leave the store alone do, what happens by itself, and the error of a
statement that the database refuses. -/
structure Surroundings (X : Type) (A : X → Type) (ε O : Type) where
  acts : O → (x : X) → Except ε (A x) → O → Prop
  drifts : O → O → Prop
  lost : ε

structure World (α κ : Type) (key : α → κ) (O : Type) where
  store : Store α κ key
  outer : O

abbrev Past (α κ X : Type) (A : X → Type) (ε : Type) :=
  History (Command α κ X) fun c => Except ε (Reply A c)

abbrev Traces (α κ X : Type) (A : X → Type) (ε : Type) :=
  Trace (Command α κ X) fun c => Except ε (Reply A c)

abbrev Happening (α κ X : Type) (A : X → Type) (ε : Type) :=
  Event (Command α κ X) fun c => Except ε (Reply A c)

namespace World

variable (w : World α κ key O)

def withStore (store : Store α κ key) : World α κ key O := { w with store := store }

@[simp] theorem store_withStore (store : Store α κ key) : (w.withStore store).store = store := rfl

@[simp] theorem outer_withStore (store : Store α κ key) : (w.withStore store).outer = w.outer := rfl

/-- Is the transaction still running? -/
def runs (t : ℕ) : Bool := (w.store.txns t).isSome

end World

namespace Schema

variable [DecidableEq κ] (D : Schema α κ)

/-- No other running transaction has written a row that violates an index together with this one. -/
def isUnopposed (s : Store α κ key) (t : ℕ) (r : α) : Bool :=
  (List.range s.next).all fun i => i = t || (s.txns i).all fun u =>
    u.writes.all fun v => !D.clash v r

/-- No row of another key violates an index together with this one. -/
def isFitting (rows : Rows α κ key) (r : α) : Bool :=
  rows.list.all fun v => key v = key r || !D.clash v r

/-- Every row that is referred to is there. -/
def isReferring (rows : Rows α κ key) (r : α) : Bool :=
  (D.refers r).all fun k => (rows.get k).isSome

/-- Does a new row keep the constraints? -/
def admits (rows : Rows α κ key) (r : α) : Bool :=
  (rows.get (key r)).isNone && D.isFitting rows r && D.isReferring rows r

/-- What a statement does that the database carries out. -/
def Performs (w : World α κ key O) : (c : Command α κ X) → Reply A c → World α κ key O → Prop
  | .outside _, _, _ => False
  | .start, r, w' => r = w.store.next ∧ w' = w.withStore w.store.start
  | .commit t, _, w' => w.runs t = true ∧ w' = w.withStore (w.store.commit t)
  | .rollback t, _, w' => w' = w.withStore (w.store.abort t)
  | .get t k, r, w' => w.runs t = true ∧ r = (w.store.visible t).get k ∧ w' = w
  | .select t p, rs, w' => w.runs t = true ∧ rs.Perm ((w.store.visible t).list.filter p) ∧ w' = w
  | .lock t k, r, w' => w.runs t = true ∧ r = (w.store.visible t).get k ∧
      if r.isSome then w.store.isFree t k = true ∧ w' = w.withStore (w.store.lock t k) else w' = w
  | .tryLock t k, r, w' => w.runs t = true ∧
      if ((w.store.visible t).get k).isSome && w.store.isFree t k then
        r = (w.store.visible t).get k ∧ w' = w.withStore (w.store.lock t k)
      else r = none ∧ w' = w
  | .hold t k, _, w' => w.runs t = true ∧ w.store.isFree t k = true ∧
      w' = w.withStore (w.store.lock t k)
  | .insert t r, b, w' => w.runs t = true ∧ b = D.admits (w.store.visible t) r ∧
      if b then w.store.isFree t (key r) = true ∧ D.isUnopposed w.store t r = true ∧
        w' = w.withStore (w.store.write t r) else w' = w
  | .update t r, b, w' => w.runs t = true ∧ ((w.store.visible t).get (key r)).isSome = true ∧
      b = D.isFitting (w.store.visible t) r ∧
      if b then w.store.isFree t (key r) = true ∧ D.isUnopposed w.store t r = true ∧
        w' = w.withStore (w.store.write t r) else w' = w

/-- A statement is carried out, or the database refuses it and nothing changes. -/
inductive Exec (S : Surroundings X A ε O) (w : World α κ key O) :
    (c : Command α κ X) → Except ε (Reply A c) → World α κ key O → Prop
  | outside {x : X} {r : Except ε (A x)} {o : O} (h : S.acts w.outer x r o) :
      Exec S w (.outside x) r { w with outer := o }
  | done {c : Command α κ X} {a : Reply A c} {w' : World α κ key O} (h : D.Performs w c a w') :
      Exec S w c (.ok a) w'
  | refused {c : Command α κ X} (h : c.isOutside = false) : Exec S w c (.error S.lost) w

/-- The surroundings change, and the database ends transactions whose connection is lost. -/
inductive Environment (S : Surroundings X A ε O) (w : World α κ key O) : World α κ key O → Prop
  | drift {o : O} (h : S.drifts w.outer o) : Environment S w { w with outer := o }
  | lost (t : ℕ) : Environment S w (w.withStore (w.store.abort t))

/-- A statement that fails raises the error of the database, and the rows that it returns are
different rows that it has asked for. -/
def possible (key : α → κ) (S : Surroundings X A ε O) :
    (c : Command α κ X) → Except ε (Reply A c) → Prop
  | .outside x, r => ∃ o o', S.acts o x r o'
  | .get _ k, r | .lock _ k, r | .tryLock _ k, r =>
      (∀ e, r = .error e → e = S.lost) ∧ ∀ v, r = .ok (some v) → key v = k
  | .select _ p, r => (∀ e, r = .error e → e = S.lost) ∧
      ∀ rs, r = .ok rs → (rs.map key).Nodup ∧ ∀ v ∈ rs, p v = true
  | _, r => ∀ e, r = .error e → e = S.lost

theorem possible_of_exec {S : Surroundings X A ε O} {w w' : World α κ key O} {c : Command α κ X}
    {r : Except ε (Reply A c)} (h : D.Exec S w c r w') : possible key S c r := by
  cases h with
  | outside h => exact ⟨_, _, h⟩
  | @done c a w' h =>
      cases c with
      | outside x => exact h.elim
      | start | commit | rollback | hold | insert | update => exact fun _ he => by cases he
      | get t k =>
          refine ⟨(fun _ he => by cases he), fun v hv => ?_⟩
          cases hv
          exact Rows.get_key h.2.1.symm
      | lock t k =>
          refine ⟨(fun _ he => by cases he), fun v hv => ?_⟩
          cases hv
          exact Rows.get_key h.2.1.symm
      | tryLock t k =>
          refine ⟨(fun _ he => by cases he), fun v hv => ?_⟩
          cases hv
          have hlock := h.2
          split at hlock
          · exact Rows.get_key hlock.1.symm
          · cases hlock.1
      | select t p =>
          refine ⟨(fun _ he => by cases he), fun rs hrs => ⟨?_, fun v hv => ?_⟩⟩
          · cases hrs
            have hsub : ((w.store.visible t).list.filter p).Sublist (w.store.visible t).list :=
              List.filter_sublist
            exact (h.2.1.map key).nodup_iff.mpr ((w.store.visible t).nodup.sublist (hsub.map key))
          · cases hrs
            exact (List.mem_filter.mp (h.2.1.mem_iff.mp hv)).2
  | @refused c h =>
      have hlost : ∀ {β : Type} (e : ε),
          (Except.error S.lost : Except ε β) = .error e → e = S.lost := by
        rintro _ _ ⟨⟩
        rfl
      cases c with
      | outside x => cases h
      | start | commit | rollback | hold | insert | update => exact hlost
      | get | lock | tryLock | select => exact ⟨hlost, fun _ hr => by cases hr⟩

def system {β : Type} (S : Surroundings X A ε O)
    (entry : Program (Command α κ X) (fun c => Except ε (Reply A c)) β → Prop) :
    System (Command α κ X) (fun c => Except ε (Reply A c)) β (World α κ key O) where
  exec := D.Exec S
  environment := Environment S
  entry := entry
  possible := possible key S
  possible_of_exec := D.possible_of_exec

end Schema

/-- No transaction is running. -/
def Quiescent (w : World α κ key O) : Prop := ∀ t, w.store.txns t = none

/-! ### Programs -/

abbrev Prog (α κ X : Type) (A : X → Type) (ε β : Type) :=
  Fallible (Command α κ X) (Reply A) ε β

namespace Call

abbrev outside (x : X) : Prog α κ X A ε (A x) := call (Command.outside x)
abbrev start : Prog α κ X A ε ℕ := call Command.start
abbrev commit (t : ℕ) : Prog α κ X A ε Unit := call (Command.commit t)
abbrev rollback (t : ℕ) : Prog α κ X A ε Unit := call (Command.rollback t)
abbrev get (t : ℕ) (k : κ) : Prog α κ X A ε (Option α) := call (Command.get t k)
abbrev select (t : ℕ) (p : α → Bool) : Prog α κ X A ε (List α) := call (Command.select t p)
abbrev lock (t : ℕ) (k : κ) : Prog α κ X A ε (Option α) := call (Command.lock t k)
abbrev tryLock (t : ℕ) (k : κ) : Prog α κ X A ε (Option α) := call (Command.tryLock t k)
abbrev insert (t : ℕ) (r : α) : Prog α κ X A ε Bool := call (Command.insert t r)
abbrev update (t : ℕ) (r : α) : Prog α κ X A ε Bool := call (Command.update t r)

end Call

/-- `with session_scope() as session`. -/
def sessionScope {β : Type} (body : ℕ → Prog α κ X A ε β) : Prog α κ X A ε β := do
  let t ← Call.start
  match ← attempt (do
      let b ← body t
      Call.commit t
      return b) with
  | .ok b => return b
  | .error e =>
      Call.rollback t
      throw e

/-! ### An executable reading of the statements -/

namespace Schema

variable [DecidableEq κ] (D : Schema α κ) (S : Surroundings X A ε O)
  (act : O → (x : X) → Except ε (A x) × O)

/-- A statement that would wait for a lock is refused. -/
def answer (w : World α κ key O) : (c : Command α κ X) → Except ε (Reply A c) × World α κ key O
  | .outside x => ((act w.outer x).1, { w with outer := (act w.outer x).2 })
  | .start => (.ok w.store.next, w.withStore w.store.start)
  | .commit t => if w.runs t then (.ok (), w.withStore (w.store.commit t)) else (.error S.lost, w)
  | .rollback t => (.ok (), w.withStore (w.store.abort t))
  | .get t k => if w.runs t then (.ok ((w.store.visible t).get k), w) else (.error S.lost, w)
  | .select t p =>
      if w.runs t then (.ok ((w.store.visible t).list.filter p), w) else (.error S.lost, w)
  | .lock t k =>
      if w.runs t && ((w.store.visible t).get k).isNone then (.ok none, w)
      else if w.runs t && w.store.isFree t k then
        (.ok ((w.store.visible t).get k), w.withStore (w.store.lock t k))
      else (.error S.lost, w)
  | .tryLock t k =>
      if w.runs t && (((w.store.visible t).get k).isSome && w.store.isFree t k) then
        (.ok ((w.store.visible t).get k), w.withStore (w.store.lock t k))
      else if w.runs t then (.ok none, w)
      else (.error S.lost, w)
  | .hold t k =>
      if w.runs t && w.store.isFree t k then (.ok (), w.withStore (w.store.lock t k))
      else (.error S.lost, w)
  | .insert t r =>
      if w.runs t && !D.admits (w.store.visible t) r then (.ok false, w)
      else if w.runs t && (w.store.isFree t (key r) && D.isUnopposed w.store t r) then
        (.ok true, w.withStore (w.store.write t r))
      else (.error S.lost, w)
  | .update t r =>
      if w.runs t && ((w.store.visible t).get (key r)).isSome then
        if D.isFitting (w.store.visible t) r then
          if w.store.isFree t (key r) && D.isUnopposed w.store t r then
            (.ok true, w.withStore (w.store.write t r))
          else (.error S.lost, w)
        else (.ok false, w)
      else (.error S.lost, w)

theorem exec_answer (hact : ∀ o x, S.acts o x (act o x).1 (act o x).2) (w : World α κ key O)
    (c : Command α κ X) : D.Exec S w c (D.answer S act w c).1 (D.answer S act w c).2 := by
  cases c with
  | outside x => exact .outside (hact w.outer x)
  | start => exact .done ⟨rfl, rfl⟩
  | rollback t => exact .done rfl
  | commit t =>
      simp only [answer]
      split
      · rename_i hruns
        exact .done ⟨hruns, rfl⟩
      · exact .refused rfl
  | get t k =>
      simp only [answer]
      split
      · rename_i hruns
        exact .done ⟨hruns, rfl, rfl⟩
      · exact .refused rfl
  | select t p =>
      simp only [answer]
      split
      · rename_i hruns
        exact .done ⟨hruns, List.Perm.refl _, rfl⟩
      · exact .refused rfl
  | lock t k =>
      simp only [answer]
      split
      · rename_i h
        rw [Bool.and_eq_true, Option.isNone_iff_eq_none] at h
        exact .done ⟨h.1, h.2.symm, rfl⟩
      · split
        · rename_i hnone h
          rw [Bool.and_eq_true] at h
          refine .done ⟨h.1, rfl, ?_⟩
          rw [h.1, Bool.true_and, Bool.not_eq_true, Option.isNone_eq_false_iff] at hnone
          rw [if_pos hnone]
          exact ⟨h.2, rfl⟩
        · exact .refused rfl
  | tryLock t k =>
      simp only [answer]
      split
      · rename_i h
        rw [Bool.and_eq_true] at h
        exact .done ⟨h.1, by rw [if_pos h.2]; exact ⟨rfl, rfl⟩⟩
      · rename_i hlock
        split
        · rename_i hruns
          rw [hruns, Bool.true_and] at hlock
          exact .done ⟨hruns, by rw [if_neg hlock]; exact ⟨rfl, rfl⟩⟩
        · exact .refused rfl
  | hold t k =>
      simp only [answer]
      split
      · rename_i h
        rw [Bool.and_eq_true] at h
        exact .done ⟨h.1, h.2, rfl⟩
      · exact .refused rfl
  | insert t r =>
      simp only [answer]
      split
      · rename_i h
        rw [Bool.and_eq_true, Bool.not_eq_true'] at h
        exact .done ⟨h.1, h.2.symm, rfl⟩
      · rename_i hadmits
        split
        · rename_i h
          rw [Bool.and_eq_true, Bool.and_eq_true] at h
          rw [h.1, Bool.true_and, Bool.not_eq_true, Bool.not_eq_false'] at hadmits
          exact .done ⟨h.1, hadmits.symm, h.2.1, h.2.2, rfl⟩
        · exact .refused rfl
  | update t r =>
      simp only [answer]
      split
      · rename_i h
        rw [Bool.and_eq_true] at h
        split
        · rename_i hfits
          split
          · rename_i hfree
            rw [Bool.and_eq_true] at hfree
            exact .done ⟨h.1, h.2, hfits.symm, hfree.1, hfree.2, rfl⟩
          · exact .refused rfl
        · rename_i hfits
          exact .done ⟨h.1, h.2, (Bool.eq_false_iff.mpr hfits).symm, rfl⟩
      · exact .refused rfl

end Schema

end Gjallar.Sessions

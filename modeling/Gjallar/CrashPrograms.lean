import Mathlib.Data.List.Basic

/-!
# Programs that can be killed

A program takes steps. A step replaces the state and reads a reply of the surroundings, and the
program goes on from what it saw. An execution is given a list of replies; where the list ends the
program is killed, so the lists of all lengths range over all points at which it can be killed.
-/
namespace Gjallar.CrashPrograms

inductive Prog (σ ρ ε α : Type) where
  | done (a : α)
  | raise (e : ε)
  | step (f : σ → ρ → σ) (k : σ → ρ → Prog σ ρ ε α)

variable {σ ρ ε α β : Type}

namespace Prog

protected def bind : Prog σ ρ ε α → (α → Prog σ ρ ε β) → Prog σ ρ ε β
  | .done a, q => q a
  | .raise e, _ => .raise e
  | .step f k, q => .step f fun s r => (k s r).bind q

instance : Monad (Prog σ ρ ε) where
  pure := .done
  bind := .bind

/-- Read the state. -/
def read (f : σ → α) : Prog σ ρ ε α := .step (fun s _ => s) fun s _ => .done (f s)

/-- Change the state. -/
def write (f : σ → σ) : Prog σ ρ ε Unit := .step (fun s _ => f s) fun _ _ => .done ()

/-- Receive a reply of the surroundings. -/
def receive (f : ρ → α) : Prog σ ρ ε α := .step (fun s _ => s) fun _ r => .done (f r)

/-- Raise an error when a condition holds. -/
def raiseIf (bad : Prop) [Decidable bad] (e : ε) : Prog σ ρ ε Unit :=
  if bad then .raise e else .done ()

/-- The value of an option, or an error. -/
def orRaise (a : Option α) (e : ε) : Prog σ ρ ε α :=
  match a with
  | some a => .done a
  | none => .raise e

end Prog

inductive Outcome (ε α : Type) where
  | returned (a : α)
  | raised (e : ε)
  | killed
  deriving DecidableEq

/-- How an execution ended, the replies it left and its state. -/
structure Execution (σ ρ ε α : Type) where
  outcome : Outcome ε α
  rest : List ρ
  state : σ

def Prog.exec : Prog σ ρ ε α → List ρ → σ → Execution σ ρ ε α
  | .done a, rs, s => ⟨.returned a, rs, s⟩
  | .raise e, rs, s => ⟨.raised e, rs, s⟩
  | .step _ _, [], s => ⟨.killed, [], s⟩
  | .step f k, r :: rs, s => (k s r).exec rs (f s r)

/-- More replies change nothing once the program has ended. -/
theorem Prog.exec_append {p : Prog σ ρ ε α} {rs : List ρ} {s : σ} (more : List ρ)
    (h : (p.exec rs s).outcome ≠ .killed) :
    (p.exec (rs ++ more) s).outcome = (p.exec rs s).outcome ∧
      (p.exec (rs ++ more) s).state = (p.exec rs s).state := by
  induction p generalizing rs s with
  | done a => exact ⟨rfl, rfl⟩
  | raise e => exact ⟨rfl, rfl⟩
  | step f k ih =>
      cases rs with
      | nil => exact absurd rfl h
      | cons r rs => exact ih s r h

/-- A program either is killed or ends when it has enough replies. -/
theorem Prog.exists_finished (p : Prog σ ρ ε α) (replies : ℕ → ρ) (s : σ) :
    ∃ n, ∀ m, n ≤ m → (p.exec ((List.range m).map replies) s).outcome ≠ .killed := by
  induction p generalizing replies s with
  | done a => exact ⟨0, fun m _ h => by cases h⟩
  | raise e => exact ⟨0, fun m _ h => by cases h⟩
  | step f k ih =>
      obtain ⟨n, hn⟩ := ih s (replies 0) (fun i => replies (i + 1)) (f s (replies 0))
      refine ⟨n + 1, fun m hm => ?_⟩
      obtain ⟨m, rfl⟩ : ∃ l, m = l + 1 := ⟨m - 1, by omega⟩
      rw [List.range_succ_eq_map, List.map_cons, List.map_map]
      exact hn m (by omega)

/-! ### Weakest preconditions -/

/-- What is assumed of the replies, what every state on the way has, and what is known when an
error is raised. -/
structure Contract (σ ρ ε : Type) where
  replies : ρ → Prop := fun _ => True
  always : σ → Prop := fun _ => True
  raised : ε → σ → Prop := fun _ _ => True

/-- The program keeps the contract from the state on, and what it returns satisfies `Q`. -/
def wp (c : Contract σ ρ ε) : Prog σ ρ ε α → (α → σ → Prop) → σ → Prop
  | .done a, Q, s => Q a s
  | .raise e, _, s => c.raised e s
  | .step f k, Q, s => ∀ r, c.replies r → c.always (f s r) ∧ wp c (k s r) Q (f s r)

section Rules

variable {c : Contract σ ρ ε} {Q Q' : α → σ → Prop} {s : σ}

@[simp] theorem wp_done (a : α) : wp c (.done a) Q s ↔ Q a s := Iff.rfl

@[simp] theorem wp_pure (a : α) : wp c (pure a) Q s ↔ Q a s := Iff.rfl

@[simp] theorem wp_raise (e : ε) : wp c (.raise e) Q s ↔ c.raised e s := Iff.rfl

theorem wp_step (f : σ → ρ → σ) (k : σ → ρ → Prog σ ρ ε α) : wp c (.step f k) Q s ↔
    ∀ r, c.replies r → c.always (f s r) ∧ wp c (k s r) Q (f s r) := Iff.rfl

theorem wp_read (f : σ → α) (hs : c.always s) (h : Q (f s) s) : wp c (.read f) Q s :=
  fun _ _ => ⟨hs, h⟩

theorem wp_write {f : σ → σ} {Q : Unit → σ → Prop} (hs : c.always (f s)) (h : Q () (f s)) :
    wp c (.write f) Q s :=
  fun _ _ => ⟨hs, h⟩

theorem wp_receive {f : ρ → α} (hs : c.always s) (h : ∀ r, c.replies r → Q (f r) s) :
    wp c (.receive f) Q s :=
  fun r hr => ⟨hs, h r hr⟩

theorem wp_raiseIf {bad : Prop} [Decidable bad] {e : ε} {Q : Unit → σ → Prop}
    (hbad : bad → c.raised e s) (h : ¬ bad → Q () s) : wp c (.raiseIf bad e) Q s := by
  unfold Prog.raiseIf
  split_ifs with hc
  · exact hbad hc
  · exact h hc

theorem wp_orRaise {a : Option α} {e : ε} (hnone : a = none → c.raised e s)
    (h : ∀ b, a = some b → Q b s) : wp c (.orRaise a e) Q s := by
  cases a with
  | none => exact hnone rfl
  | some b => exact h b rfl

theorem wp_mono {p : Prog σ ρ ε α} (h : wp c p Q s) (hQ : ∀ a t, Q a t → Q' a t) :
    wp c p Q' s := by
  induction p generalizing s with
  | done a => exact hQ a s h
  | raise e => exact h
  | step f k ih => exact fun r hr => ⟨(h r hr).1, ih s r (h r hr).2⟩

theorem wp_bind {p : Prog σ ρ ε α} {q : α → Prog σ ρ ε β} {R : β → σ → Prop} :
    wp c (p >>= q) R s ↔ wp c p (fun a => wp c (q a) R) s := by
  induction p generalizing s with
  | done a => exact Iff.rfl
  | raise e => exact Iff.rfl
  | step f k ih =>
      refine forall₂_congr fun r _ => and_congr_right fun _ => ?_
      exact ih s r

/-- The rule of sequential composition. -/
theorem wp_seq {p : Prog σ ρ ε α} {q : α → Prog σ ρ ε β} {R : β → σ → Prop}
    (h : wp c p Q s) (hq : ∀ a t, Q a t → wp c (q a) R t) : wp c (p >>= q) R s :=
  wp_bind.mpr (wp_mono h hq)

/-- What is shown by a weakest precondition holds of every execution: at every point at which the
program can be killed, and where it ends. -/
theorem wp_exec {p : Prog σ ρ ε α} (h : wp c p Q s) (hs : c.always s) {rs : List ρ}
    (hrs : ∀ r ∈ rs, c.replies r) :
    c.always (p.exec rs s).state ∧
      (∀ a, (p.exec rs s).outcome = .returned a → Q a (p.exec rs s).state) ∧
      (∀ e, (p.exec rs s).outcome = .raised e → c.raised e (p.exec rs s).state) := by
  induction p generalizing s rs with
  | done a =>
      refine ⟨hs, fun b hb => ?_, fun e he => (by cases he)⟩
      cases hb
      exact h
  | raise e =>
      refine ⟨hs, fun b hb => (by cases hb), fun e' he => ?_⟩
      cases he
      exact h
  | step f k ih =>
      cases rs with
      | nil => exact ⟨hs, fun b hb => (by cases hb), fun e he => (by cases he)⟩
      | cons r rs =>
          have hr := h r (hrs r List.mem_cons_self)
          exact ih s r hr.2 hr.1 fun r' hr' => hrs r' (List.mem_cons_of_mem r hr')

/-- A contract may assume more of the replies and promise less. -/
theorem wp_weaken {c' : Contract σ ρ ε} {p : Prog σ ρ ε α} (h : wp c p Q s) (hs : c.always s)
    (hreplies : ∀ r, c'.replies r → c.replies r) (halways : ∀ t, c.always t → c'.always t)
    (hraised : ∀ e t, c.always t → c.raised e t → c'.raised e t)
    (hQ : ∀ a t, c.always t → Q a t → Q' a t) : wp c' p Q' s := by
  induction p generalizing s with
  | done a => exact hQ a s hs h
  | raise e => exact hraised e s hs h
  | step f k ih =>
      intro r hr
      have hstep := h r (hreplies r hr)
      exact ⟨halways _ hstep.1, ih s r hstep.2 hstep.1⟩

/-- On the assumed replies a program ends, as its contract says. -/
theorem wp_ends {p : Prog σ ρ ε α} (h : wp c p Q s) (hs : c.always s) {replies : ℕ → ρ}
    (hreplies : ∀ i, c.replies (replies i)) :
    ∃ n, ∀ m, n ≤ m →
      (∃ a, (p.exec ((List.range m).map replies) s).outcome = .returned a ∧
        Q a (p.exec ((List.range m).map replies) s).state) ∨
      ∃ e, (p.exec ((List.range m).map replies) s).outcome = .raised e ∧
        c.raised e (p.exec ((List.range m).map replies) s).state := by
  obtain ⟨n, hn⟩ := p.exists_finished replies s
  refine ⟨n, fun m hm => ?_⟩
  have hrs : ∀ r ∈ (List.range m).map replies, c.replies r := by
    intro r hr
    obtain ⟨i, -, rfl⟩ := List.mem_map.mp hr
    exact hreplies i
  obtain ⟨-, hreturned, hfailed⟩ := wp_exec h hs hrs
  cases hout : (p.exec ((List.range m).map replies) s).outcome with
  | returned a => exact .inl ⟨a, rfl, hreturned a hout⟩
  | raised e => exact .inr ⟨e, rfl, hfailed e hout⟩
  | killed => exact absurd hout (hn m hm)

end Rules

/-! ### One run after the other -/

/-- The states after any number of runs, each of which may be killed, and of changes from
outside. -/
inductive Reached {ι : Type} (prog : ι → Prog σ ρ ε α) (allowed : ι → σ → List ρ → Prop)
    (outside : σ → σ → Prop) (start : σ) : σ → Prop
  | start : Reached prog allowed outside start start
  | run {s : σ} (h : Reached prog allowed outside start s) (i : ι) (rs : List ρ)
      (hi : allowed i s rs) : Reached prog allowed outside start ((prog i).exec rs s).state
  | outside {s t : σ} (h : Reached prog allowed outside start s) (ht : outside s t) :
      Reached prog allowed outside start t

/-- An invariant that every run keeps holds of every state reached. -/
theorem Reached.invariant {ι : Type} {prog : ι → Prog σ ρ ε α}
    {allowed : ι → σ → List ρ → Prop} {outside : σ → σ → Prop} {start s : σ} {I : σ → Prop}
    (h : Reached prog allowed outside start s) (hstart : I start)
    (hrun : ∀ i t rs, allowed i t rs → I t → I ((prog i).exec rs t).state)
    (houtside : ∀ t u, I t → outside t u → I u) : I s := by
  induction h with
  | start => exact hstart
  | run _ i rs hi ih => exact hrun i _ rs hi ih
  | outside _ ht ih => exact houtside _ _ ih ht

end Gjallar.CrashPrograms

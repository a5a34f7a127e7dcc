import Mathlib.Data.List.Basic

/-!
# Interleaved processes over a shared world

A program is a tree of commands, each with a continuation for every reply. A system runs any
number of programs against one world: programs are started at any time, take one command at a
time in any order, and may crash at any point, while an environment changes the world. The
commands executed so far form a trace.

A contract says which command a program may issue after which history of its own commands, and how
it may end. The rule `Contract.invariant` reduces an invariant of every reachable world and trace
to one proof obligation for each allowed command.
-/
namespace Gjallar.Processes

/-- A program: a result, or a command with a continuation for each reply, or a crash. -/
inductive Program (C : Type) (R : C → Type) (α : Type) where
  | done (a : α)
  | call (c : C) (k : R c → Program C R α)
  | crashed

/-- An executed command with its reply. -/
structure Event (C : Type) (R : C → Type) where
  command : C
  reply : R command

/-- The events of one process, the newest first. -/
abbrev History (C : Type) (R : C → Type) := List (Event C R)

/-- The events of all processes, the newest first, each with the number of its process. -/
abbrev Trace (C : Type) (R : C → Type) := List (ℕ × Event C R)

variable {C : Type} {R : C → Type} {α β : Type}

namespace Program

/-- Issue one command. -/
def send (c : C) : Program C R (R c) := .call c .done

/-- Run a program and continue with its result. -/
def bind : Program C R α → (α → Program C R β) → Program C R β
  | .done a, f => f a
  | .call c k, f => .call c fun r => bind (k r) f
  | .crashed, _ => .crashed

instance : Monad (Program C R) where
  pure := .done
  bind := bind

@[simp] theorem pure_eq (a : α) : (pure a : Program C R α) = .done a := rfl
@[simp] theorem done_bind (a : α) (f : α → Program C R β) :
    ((.done a : Program C R α) >>= f) = f a := rfl
@[simp] theorem call_bind (c : C) (k : R c → Program C R α) (f : α → Program C R β) :
    (.call c k >>= f) = .call c fun r => k r >>= f := rfl
@[simp] theorem send_bind (c : C) (f : R c → Program C R β) : (send c >>= f) = .call c f := rfl

end Program

/-- What a trace says about one process. -/
def historyOf (i : ℕ) (t : Trace C R) : History C R :=
  t.filterMap fun e => if e.1 = i then some e.2 else none

@[simp] theorem historyOf_nil (i : ℕ) : historyOf i ([] : Trace C R) = [] := rfl

@[simp] theorem historyOf_cons_self (i : ℕ) (e : Event C R) (t : Trace C R) :
    historyOf i ((i, e) :: t) = e :: historyOf i t := by simp [historyOf]

theorem historyOf_cons_ne {i j : ℕ} (h : j ≠ i) (e : Event C R) (t : Trace C R) :
    historyOf i ((j, e) :: t) = historyOf i t := by simp [historyOf, h]

theorem mem_historyOf {i : ℕ} {e : Event C R} {t : Trace C R} :
    e ∈ historyOf i t ↔ (i, e) ∈ t := by
  simp only [historyOf, List.mem_filterMap]
  constructor
  · rintro ⟨⟨j, f⟩, hm, h⟩
    by_cases hj : j = i
    · simp only [hj, if_true, Option.some.injEq] at h
      exact h ▸ hj ▸ hm
    · simp [hj] at h
  · exact fun h => ⟨(i, e), h, by simp⟩

/-- What was the history of a process when one of its commands was executed. -/
theorem historyOf_eq_append {i : ℕ} {t : Trace C R} {new past : History C R} {e : Event C R}
    (h : historyOf i t = new ++ e :: past) :
    ∃ t₁ t₂, t = t₁ ++ (i, e) :: t₂ ∧ historyOf i t₂ = past := by
  induction t generalizing new with
  | nil => simp at h
  | cons x t ih =>
      obtain ⟨j, f⟩ := x
      by_cases hj : j = i
      · subst hj
        rw [historyOf_cons_self] at h
        cases new with
        | nil =>
            obtain ⟨rfl, rfl⟩ := List.cons.inj h
            exact ⟨[], t, rfl, rfl⟩
        | cons g new =>
            obtain ⟨t₁, t₂, rfl, hpast⟩ := ih (List.cons.inj h).2
            exact ⟨(j, f) :: t₁, t₂, rfl, hpast⟩
      · rw [historyOf_cons_ne hj] at h
        obtain ⟨t₁, t₂, rfl, hpast⟩ := ih h
        exact ⟨(j, f) :: t₁, t₂, rfl, hpast⟩

/-- A shared world, how a command may change it, what else may change it, the programs that can
be started, and what is known of every reply. -/
structure System (C : Type) (R : C → Type) (α W : Type) where
  exec : W → (c : C) → R c → W → Prop
  environment : W → W → Prop
  entry : Program C R α → Prop
  possible : (c : C) → R c → Prop
  possible_of_exec : ∀ {w c r w'}, exec w c r w' → possible c r

structure State (C : Type) (R : C → Type) (α W : Type) where
  world : W
  programs : List (Program C R α)
  trace : Trace C R

namespace System

variable {W : Type} (S : System C R α W)

/-- One step of the system. -/
inductive Step : State C R α W → State C R α W → Prop
  | start {w ps t} (p : Program C R α) (hp : S.entry p) : Step ⟨w, ps, t⟩ ⟨w, ps ++ [p], t⟩
  | call {w ps t w'} (i : ℕ) (c : C) (k : R c → Program C R α) (r : R c)
      (hi : ps[i]? = some (.call c k)) (hexec : S.exec w c r w') :
      Step ⟨w, ps, t⟩ ⟨w', ps.set i (k r), (i, ⟨c, r⟩) :: t⟩
  | crash {w ps t} (i : ℕ) : Step ⟨w, ps, t⟩ ⟨w, ps.set i .crashed, t⟩
  | environment {w ps t w'} (henv : S.environment w w') : Step ⟨w, ps, t⟩ ⟨w', ps, t⟩

/-- The states reached from a world in which no program runs yet. -/
inductive Reachable (init : W → Prop) : State C R α W → Prop
  | start {w} (h : init w) : Reachable init ⟨w, [], []⟩
  | step {s s'} (h : Reachable init s) (hs : S.Step s s') : Reachable init s'

end System

/-- Which command may be issued after which history, and with which result a program may end. -/
structure Contract (C : Type) (R : C → Type) (α : Type) where
  allowed : History C R → C → Prop
  ends : History C R → α → Prop

/-- Every command the program issues is allowed and it ends as stated, whatever possible replies
it gets. -/
def Program.Follows (possible : (c : C) → R c → Prop) (allowed : History C R → C → Prop)
    (ends : History C R → α → Prop) : History C R → Program C R α → Prop
  | h, .done a => ends h a
  | h, .call c k => allowed h c ∧
      ∀ r, possible c r → Program.Follows possible allowed ends (⟨c, r⟩ :: h) (k r)
  | _, .crashed => True

section Follows

variable {possible : (c : C) → R c → Prop} {allowed : History C R → C → Prop}

@[simp] theorem Program.follows_done {ends : History C R → α → Prop} {h : History C R} {a : α} :
    (Program.done a).Follows possible allowed ends h ↔ ends h a := Iff.rfl

theorem Program.follows_call {ends : History C R → α → Prop} {h : History C R} {c : C}
    {k : R c → Program C R α} : (Program.call c k).Follows possible allowed ends h ↔
      allowed h c ∧ ∀ r, possible c r → (k r).Follows possible allowed ends (⟨c, r⟩ :: h) :=
  Iff.rfl

/-- A weaker statement about the end. -/
theorem Program.Follows.mono {ends ends' : History C R → α → Prop} {h : History C R}
    {p : Program C R α} (hp : p.Follows possible allowed ends h)
    (himp : ∀ h a, ends h a → ends' h a) : p.Follows possible allowed ends' h := by
  induction p generalizing h with
  | done a => exact himp h a hp
  | call c k ih => exact ⟨hp.1, fun r hr => ih r (hp.2 r hr)⟩
  | crashed => trivial

/-- The rule of sequential composition. -/
theorem Program.Follows.bind {ends : History C R → β → Prop} {h : History C R}
    {p : Program C R α} {f : α → Program C R β}
    (hp : p.Follows possible allowed (fun h a => (f a).Follows possible allowed ends h) h) :
    (p >>= f).Follows possible allowed ends h := by
  induction p generalizing h with
  | done a => exact hp
  | call c k ih => exact ⟨hp.1, fun r hr => ih r (hp.2 r hr)⟩
  | crashed => trivial

/-- A program that keeps to a stricter rule keeps to the rule. -/
theorem Program.Follows.weaken {allowed' : History C R → C → Prop} {ends : History C R → α → Prop}
    {h : History C R} {p : Program C R α} (hp : p.Follows possible allowed ends h)
    (himp : ∀ h c, allowed h c → allowed' h c) : p.Follows possible allowed' ends h := by
  induction p generalizing h with
  | done a => exact hp
  | call c k ih => exact ⟨himp h c hp.1, fun r hr => ih r (hp.2 r hr)⟩
  | crashed => trivial

/-- A history only grows, by events whose commands were allowed. -/
theorem Program.Follows.grows {ends : History C R → α → Prop} {h : History C R}
    {p : Program C R α} (hp : p.Follows possible allowed ends h) :
    p.Follows possible allowed (fun h' a => (∃ new, h' = new ++ h ∧
      ∀ e ∈ new, ∃ h₀, allowed h₀ e.command) ∧ ends h' a) h := by
  suffices hgen : ∀ new, (∀ e ∈ new, ∃ h₀, allowed h₀ e.command) →
      p.Follows possible allowed ends (new ++ h) →
      p.Follows possible allowed (fun h' a => (∃ new, h' = new ++ h ∧
        ∀ e ∈ new, ∃ h₀, allowed h₀ e.command) ∧ ends h' a) (new ++ h) from
    hgen [] (by simp) hp
  clear hp
  induction p with
  | done a => exact fun new hnew hp => ⟨⟨new, rfl, hnew⟩, hp⟩
  | call c k ih =>
      intro new hnew hp
      refine ⟨hp.1, fun r hr => ih r (⟨c, r⟩ :: new) ?_ (hp.2 r hr)⟩
      rw [List.forall_mem_cons]
      exact ⟨⟨_, hp.1⟩, hnew⟩
  | crashed => exact fun _ _ _ => trivial

end Follows

section Rules

variable {W : Type} {S : System C R α W} {init : W → Prop} {D : Contract C R α}

/-- Events name only processes that were started. -/
theorem index_lt_of_mem_trace {s : State C R α W} (h : S.Reachable init s) :
    ∀ e ∈ s.trace, e.1 < s.programs.length := by
  induction h with
  | start _ => simp
  | step _ hs ih =>
      cases hs with
      | start p hp =>
          intro e he
          have := ih e he
          simp only [List.length_append] at this ⊢
          omega
      | call i c k r hi hexec =>
          intro e he
          rw [List.length_set]
          rcases List.mem_cons.mp he with rfl | he
          · exact (List.getElem?_eq_some_iff.mp hi).1
          · exact ih e he
      | crash i => simpa using ih
      | environment henv => exact ih

/-- In every reachable state each program still follows the contract that all programs follow
when they start. -/
theorem follows_of_reachable
    (hentry : ∀ p, S.entry p → p.Follows S.possible D.allowed D.ends [])
    {s : State C R α W} (h : S.Reachable init s) :
    ∀ (i : ℕ) (p : Program C R α), s.programs[i]? = some p →
      p.Follows S.possible D.allowed D.ends (historyOf i s.trace) := by
  induction h with
  | start _ => simp
  | @step s s' hr hs ih =>
      cases hs with
      | @start w ps t p hp =>
          intro i q hq
          rcases Nat.lt_trichotomy i ps.length with hi | hi | hi
          · rw [List.getElem?_append_left hi] at hq
            exact ih i q hq
          · subst hi
            simp only [List.getElem?_concat_length, Option.some.injEq] at hq
            subst hq
            have hfresh : historyOf ps.length t = [] := by
              rw [List.eq_nil_iff_forall_not_mem]
              intro e he
              have := index_lt_of_mem_trace hr _ (mem_historyOf.mp he)
              exact absurd this (Nat.lt_irrefl _)
            rw [hfresh]
            exact hentry p hp
          · rw [List.getElem?_eq_none (by simp; omega)] at hq
            cases hq
      | @call w ps t w' i c k r hi hexec =>
          intro j q hq
          by_cases hj : i = j
          · subst hj
            have hlt := (List.getElem?_eq_some_iff.mp hi).1
            simp only [List.getElem?_set_self hlt, Option.some.injEq] at hq
            subst hq
            rw [historyOf_cons_self]
            exact (ih i _ hi).2 r (S.possible_of_exec hexec)
          · rw [historyOf_cons_ne hj]
            rw [List.getElem?_set_ne hj] at hq
            exact ih j q hq
      | @crash w ps t i =>
          intro j q hq
          by_cases hj : i = j
          · subst hj
            rw [List.getElem?_set] at hq
            by_cases hlt : i < ps.length
            · simp only [hlt, if_true, Option.some.injEq] at hq
              subst hq
              trivial
            · simp [hlt] at hq
          · rw [List.getElem?_set_ne hj] at hq
            exact ih j q hq
      | environment henv => exact ih

/-- An invariant of world and trace holds in every reachable state when it holds at the start and
is preserved by every command that the contract allows and by the environment. -/
theorem Contract.invariant {I : W → Trace C R → Prop}
    (hentry : ∀ p, S.entry p → p.Follows S.possible D.allowed D.ends [])
    (hinit : ∀ w, init w → I w [])
    (hcall : ∀ w t i c r w', I w t → D.allowed (historyOf i t) c → S.exec w c r w' →
      I w' ((i, ⟨c, r⟩) :: t))
    (henv : ∀ w t w', I w t → S.environment w w' → I w' t)
    {s : State C R α W} (h : S.Reachable init s) : I s.world s.trace := by
  induction h with
  | start hw => exact hinit _ hw
  | @step s s' hr hs ih =>
      cases hs with
      | start p hp => exact ih
      | call i c k r hi hexec =>
          exact hcall _ _ i c r _ ih (follows_of_reachable hentry hr i _ hi).1 hexec
      | crash i => exact ih
      | environment he => exact henv _ _ _ ih he

/-- A command a process is about to issue is allowed after its history. -/
theorem Contract.allowed_of_reachable
    (hentry : ∀ p, S.entry p → p.Follows S.possible D.allowed D.ends []) {s : State C R α W}
    (h : S.Reachable init s) {i : ℕ} {c : C} {k : R c → Program C R α}
    (hi : s.programs[i]? = some (.call c k)) : D.allowed (historyOf i s.trace) c :=
  (follows_of_reachable hentry h i _ hi).1

/-- A process that has ended has ended as the contract says. -/
theorem Contract.ends_of_reachable
    (hentry : ∀ p, S.entry p → p.Follows S.possible D.allowed D.ends []) {s : State C R α W}
    (h : S.Reachable init s) {i : ℕ} {a : α} (hi : s.programs[i]? = some (.done a)) :
    D.ends (historyOf i s.trace) a := follows_of_reachable hentry h i _ hi

end Rules

end Gjallar.Processes

import Gjallar.Fallible
import Mathlib.Data.List.Induction
import Mathlib.Logic.Relation

/-!
# Uninterrupted runs

A run of one program alone against a world, with the events it leaves behind. A run of a program
that raises is taken apart along its sequential composition. From a reachable state of a system a
program may be run to its end, and processes may be played in any order with an executable answer
to every command. A system may be restricted to the steps that meet a condition.
-/
namespace Gjallar.Processes

section Runs

variable {C : Type} {R : C → Type} {α β W : Type} {exec : W → (c : C) → R c → W → Prop}

/-- The program runs from the first world to its result in the last; the newest event is the
first. -/
inductive Runs (exec : W → (c : C) → R c → W → Prop) :
    W → Program C R α → History C R → α → W → Prop
  | done {w a} : Runs exec w (.done a) [] a w
  | call {w c k r w' h a w''} (hexec : exec w c r w') (hrest : Runs exec w' (k r) h a w'') :
      Runs exec w (.call c k) (h ++ [⟨c, r⟩]) a w''

theorem runs_done {w w' : W} {a b : α} {h : History C R} :
    Runs exec w (.done a) h b w' ↔ h = [] ∧ b = a ∧ w' = w := by
  constructor
  · rintro ⟨⟩
    exact ⟨rfl, rfl, rfl⟩
  · rintro ⟨rfl, rfl, rfl⟩
    exact .done

theorem runs_call {w w'' : W} {c : C} {k : R c → Program C R α} {h : History C R} {a : α} :
    Runs exec w (.call c k) h a w'' ↔ ∃ r w' rest, exec w c r w' ∧ Runs exec w' (k r) rest a w'' ∧
      h = rest ++ [⟨c, r⟩] := by
  constructor
  · intro hrun
    cases hrun with
    | call hexec hrest => exact ⟨_, _, _, hexec, hrest, rfl⟩
  · rintro ⟨r, w', rest, hexec, hrest, rfl⟩
    exact .call hexec hrest

/-- The rule of sequential composition. -/
theorem runs_bind {p : Program C R α} {f : α → Program C R β} {w w'' : W} {h : History C R}
    {b : β} : Runs exec w (p >>= f) h b w'' ↔ ∃ a w' h₁ h₂, Runs exec w p h₁ a w' ∧
      Runs exec w' (f a) h₂ b w'' ∧ h = h₂ ++ h₁ := by
  induction p generalizing w h with
  | done a =>
      rw [Program.done_bind]
      constructor
      · exact fun hrun => ⟨a, w, [], h, .done, hrun, (List.append_nil h).symm⟩
      · rintro ⟨_, _, _, h₂, hp, hf, rfl⟩
        obtain ⟨rfl, rfl, rfl⟩ := runs_done.mp hp
        rwa [List.append_nil]
  | call c k ih =>
      rw [Program.call_bind, runs_call]
      constructor
      · rintro ⟨r, w', rest, hexec, hrest, rfl⟩
        obtain ⟨a, v, h₁, h₂, hp, hf, rfl⟩ := (ih r).mp hrest
        exact ⟨a, v, h₁ ++ [⟨c, r⟩], h₂, .call hexec hp, hf, List.append_assoc h₂ h₁ _⟩
      · rintro ⟨a, v, h₁, h₂, hp, hf, rfl⟩
        obtain ⟨r, w', rest, hexec, hrest, rfl⟩ := runs_call.mp hp
        exact ⟨r, w', h₂ ++ rest, hexec, (ih r).mpr ⟨a, v, rest, h₂, hrest, hf, rfl⟩,
          (List.append_assoc h₂ rest _).symm⟩
  | crashed =>
      constructor
      · rintro ⟨⟩
      · rintro ⟨a, v, h₁, h₂, ⟨⟩, -⟩

end Runs

/-- Has the program ended? -/
def Program.isDone {C : Type} {R : C → Type} {α : Type} : Program C R α → Bool
  | .done _ => true
  | _ => false

/-- The result of a program that has ended. -/
def Program.result {C : Type} {R : C → Type} {α : Type} : Program C R α → Option α
  | .done a => some a
  | _ => none

theorem Program.eq_done_of_result {C : Type} {R : C → Type} {α : Type} {ps : List (Program C R α)}
    {i : ℕ} {a : α} (h : ps[i]?.bind result = some a) : ps[i]? = some (.done a) := by
  obtain ⟨p, hp, hresult⟩ := Option.bind_eq_some_iff.mp h
  cases p with
  | done b =>
      cases hresult
      exact hp
  | call c k => cases hresult
  | crashed => cases hresult

/-- Does the program wait for the answer to a command? -/
def Program.isPending {C : Type} {R : C → Type} {α : Type} : Program C R α → Bool
  | .call .. => true
  | _ => false

/-! ### Programs that may raise -/

namespace Fallible

variable {C : Type} {V : C → Type} {ε α β W : Type}
  {exec : W → (c : C) → Except ε (V c) → W → Prop} {w w' : W}
  {h : History C fun c => Except ε (V c)}

theorem runs_pure {a : α} {r : Except ε α} :
    Runs exec w (pure a : Fallible C V ε α).run h r w' ↔ h = [] ∧ r = .ok a ∧ w' = w := runs_done

theorem runs_throw {e : ε} {r : Except ε α} :
    Runs exec w (throw e : Fallible C V ε α).run h r w' ↔ h = [] ∧ r = .error e ∧ w' = w :=
  runs_done

theorem runs_call {c : C} {r : Except ε (V c)} :
    Runs exec w (call c : Fallible C V ε (V c)).run h r w' ↔ exec w c r w' ∧ h = [⟨c, r⟩] := by
  have hsend : (call c : Fallible C V ε (V c)).run = .call c .done := rfl
  rw [hsend, Processes.runs_call]
  constructor
  · rintro ⟨r', w₁, rest, hexec, hrest, rfl⟩
    obtain ⟨rfl, rfl, rfl⟩ := runs_done.mp hrest
    exact ⟨hexec, rfl⟩
  · rintro ⟨hexec, rfl⟩
    exact ⟨r, w', [], hexec, .done, rfl⟩

/-- The first program raises and so does the composition, or it returns and the second runs. -/
theorem runs_bind {p : Fallible C V ε α} {f : α → Fallible C V ε β} {r : Except ε β} :
    Runs exec w (p >>= f).run h r w' ↔ (∃ e, Runs exec w p.run h (.error e) w' ∧ r = .error e) ∨
      ∃ a w₁ h₁ h₂, Runs exec w p.run h₁ (.ok a) w₁ ∧ Runs exec w₁ (f a).run h₂ r w' ∧
        h = h₂ ++ h₁ := by
  rw [run_bind, Processes.runs_bind]
  constructor
  · rintro ⟨a, w₁, h₁, h₂, hp, hf, rfl⟩
    cases a with
    | error e =>
        obtain ⟨rfl, rfl, rfl⟩ := runs_done.mp hf
        exact .inl ⟨e, hp, rfl⟩
    | ok a => exact .inr ⟨a, w₁, h₁, h₂, hp, hf, rfl⟩
  · rintro (⟨e, hp, rfl⟩ | ⟨a, w₁, h₁, h₂, hp, hf, rfl⟩)
    · exact ⟨.error e, w', h, [], hp, .done, rfl⟩
    · exact ⟨.ok a, w₁, h₁, h₂, hp, hf, rfl⟩

end Fallible

/-! ### Runs with an answer to every command -/

/-- The result of a program, unless it crashes, and the world it leaves, when it runs alone. -/
def Program.evaluate {C : Type} {R : C → Type} {α W : Type} (answer : W → (c : C) → R c × W) :
    Program C R α → W → Option α × W
  | .done a, w => (some a, w)
  | .call c k, w => (k (answer w c).1).evaluate answer (answer w c).2
  | .crashed, w => (none, w)

theorem Program.evaluate_bind {C : Type} {R : C → Type} {α β W : Type}
    {answer : W → (c : C) → R c × W} (p : Program C R α) (f : α → Program C R β) (w : W) :
    (p >>= f).evaluate answer w = match p.evaluate answer w with
      | (some a, w') => (f a).evaluate answer w'
      | (none, w') => (none, w') := by
  induction p generalizing w with
  | done a => rfl
  | call c k ih => exact ih _ _
  | crashed => rfl

/-- What holds between the worlds before and after every answer holds from the start to the end. -/
theorem Program.evaluate_related {C : Type} {R : C → Type} {α W : Type}
    {answer : W → (c : C) → R c × W} {Q : W → W → Prop} (hrefl : ∀ w, Q w w)
    (htrans : ∀ {w₁ w₂ w₃}, Q w₁ w₂ → Q w₂ w₃ → Q w₁ w₃) (hanswer : ∀ w c, Q w (answer w c).2)
    (p : Program C R α) (w : W) : Q w (p.evaluate answer w).2 := by
  induction p generalizing w with
  | done a => exact hrefl w
  | call c k ih => exact htrans (hanswer w c) (ih _ _)
  | crashed => exact hrefl w

/-- What a program evaluates to is a run of it. -/
theorem Program.runs_of_evaluate {C : Type} {R : C → Type} {α W : Type}
    {answer : W → (c : C) → R c × W} {p : Program C R α} {w w' : W} {a : α}
    (h : p.evaluate answer w = (some a, w')) :
    ∃ past, Runs (fun w c r w' => answer w c = (r, w')) w p past a w' := by
  induction p generalizing w with
  | done b =>
      cases h
      exact ⟨[], .done⟩
  | call c k ih =>
      obtain ⟨past, hrest⟩ := ih _ h
      exact ⟨_, .call rfl hrest⟩
  | crashed => cases h

namespace Fallible

variable {C : Type} {V : C → Type} {ε α β W : Type} {answer : W → (c : C) → Except ε (V c) × W}

/-- What a program returns or raises, unless it crashes, and the world it leaves. -/
def evaluate (answer : W → (c : C) → Except ε (V c) × W) (p : Fallible C V ε α) (w : W) :
    Option (Except ε α) × W := p.run.evaluate answer w

@[simp] theorem evaluate_pure (a : α) (w : W) :
    evaluate answer (pure a) w = (some (.ok a), w) := rfl

@[simp] theorem evaluate_throw (e : ε) (w : W) :
    evaluate answer (throw e : Fallible C V ε α) w = (some (.error e), w) := rfl

@[simp] theorem evaluate_mk (r : Except ε α) (w : W) :
    evaluate answer (ExceptT.mk (.done r)) w = (some r, w) := rfl

@[simp] theorem evaluate_call (c : C) (w : W) :
    evaluate answer (call c) w = (some (answer w c).1, (answer w c).2) := rfl

/-- The rule of sequential composition. -/
@[simp] theorem evaluate_bind (p : Fallible C V ε α) (f : α → Fallible C V ε β) (w : W) :
    evaluate answer (p >>= f) w = match evaluate answer p w with
      | (some (.ok a), w') => evaluate answer (f a) w'
      | (some (.error e), w') => (some (.error e), w')
      | (none, w') => (none, w') := by
  unfold evaluate
  rw [run_bind, Program.evaluate_bind]
  rcases p.run.evaluate answer w with ⟨⟨⟩ | ⟨e⟩ | ⟨a⟩, w'⟩ <;> rfl

@[simp] theorem evaluate_attempt (p : Fallible C V ε α) (w : W) :
    evaluate answer (attempt p) w = ((evaluate answer p w).1.map .ok, (evaluate answer p w).2) := by
  have hrun : (attempt p).run = p.run >>= fun a => .done (.ok a) := rfl
  unfold evaluate
  rw [hrun, Program.evaluate_bind]
  rcases p.run.evaluate answer w with ⟨⟨⟩ | ⟨a⟩, w'⟩ <;> rfl

end Fallible

/-! ### The order of events -/

/-- An event of the first kind has happened before one of the second. -/
def Before {C : Type} {R : C → Type} (p q : ℕ × Event C R → Prop) : Trace C R → Prop
  | [] => False
  | e :: t => (q e ∧ ∃ a ∈ t, p a) ∨ Before p q t

section Before

variable {C : Type} {R : C → Type} {p q : ℕ × Event C R → Prop} {t : Trace C R}

instance [DecidablePred p] [DecidablePred q] : Decidable (Before p q t) :=
  go t
where
  go : (t : Trace C R) → Decidable (Before p q t)
    | [] => isFalse id
    | e :: t => @instDecidableOr _ _ (inferInstanceAs (Decidable (q e ∧ ∃ a ∈ t, p a))) (go t)

theorem Before.left (h : Before p q t) : ∃ a ∈ t, p a := by
  induction t with
  | nil => exact h.elim
  | cons e t ih =>
      rcases h with ⟨-, a, ha, hp⟩ | h
      · exact ⟨a, List.mem_cons_of_mem _ ha, hp⟩
      · obtain ⟨a, ha, hp⟩ := ih h
        exact ⟨a, List.mem_cons_of_mem _ ha, hp⟩

theorem Before.right (h : Before p q t) : ∃ b ∈ t, q b := by
  induction t with
  | nil => exact h.elim
  | cons e t ih =>
      rcases h with ⟨hq, -⟩ | h
      · exact ⟨e, List.mem_cons_self, hq⟩
      · obtain ⟨b, hb, hq⟩ := ih h
        exact ⟨b, List.mem_cons_of_mem _ hb, hq⟩

end Before

/-! ### Runs of a system -/

namespace System

variable {C : Type} {R : C → Type} {α W : Type} {S : System C R α W} {init : W → Prop}

theorem Reachable.steps {s s' : State C R α W} (h : S.Reachable init s)
    (hs : Relation.ReflTransGen S.Step s s') : S.Reachable init s' := by
  induction hs with
  | refl => exact h
  | tail _ hstep ih => exact ih.step hstep

/-- A trace only grows. -/
theorem trace_suffix {s s' : State C R α W} (hs : Relation.ReflTransGen S.Step s s') :
    s.trace <:+ s'.trace := by
  induction hs with
  | refl => exact List.suffix_rfl
  | tail _ hstep ih =>
      refine ih.trans ?_
      cases hstep with
      | start => exact List.suffix_rfl
      | call => exact List.suffix_cons _ _
      | crash => exact List.suffix_rfl
      | environment => exact List.suffix_rfl

/-- Programs may be started before anything happens. -/
theorem reachable_programs {w : W} (hw : init w) (ps : List (Program C R α))
    (hps : ∀ p ∈ ps, S.entry p) : S.Reachable init ⟨w, ps, []⟩ := by
  induction ps using List.reverseRecOn with
  | nil => exact .start hw
  | append_singleton ps p ih =>
      refine (ih fun q hq => hps q (List.mem_append_left _ hq)).step (.start p (hps p ?_))
      exact List.mem_append_right _ List.mem_cons_self

/-- The same system, in which commands are executed only where a condition holds. -/
def restrict (S : System C R α W) (P : W → C → Prop) : System C R α W where
  exec := fun w c r w' => S.exec w c r w' ∧ P w c
  environment := S.environment
  entry := S.entry
  possible := S.possible
  possible_of_exec := fun h => S.possible_of_exec h.1

theorem Step.of_restrict {P : W → C → Prop} {s s' : State C R α W}
    (h : (S.restrict P).Step s s') : S.Step s s' := by
  cases h with
  | start p hp => exact .start p hp
  | call i c k r hi hexec => exact .call i c k r hi hexec.1
  | crash i => exact .crash i
  | environment henv => exact .environment henv

theorem steps_of_restrict {P : W → C → Prop} {s s' : State C R α W}
    (h : Relation.ReflTransGen (S.restrict P).Step s s') : Relation.ReflTransGen S.Step s s' := by
  induction h with
  | refl => exact .refl
  | tail _ hs ih => exact ih.tail hs.of_restrict

theorem Reachable.of_restrict {P : W → C → Prop} {s : State C R α W}
    (h : (S.restrict P).Reachable init s) : S.Reachable init s := by
  induction h with
  | start hw => exact .start hw
  | step _ hs ih => exact ih.step hs.of_restrict

/-- A step whose command, if it issues one, meets a condition on the world and on what has happened
so far. -/
def StepWhere (S : System C R α W) (P : W → Trace C R → ℕ → C → Prop) (s s' : State C R α W) :
    Prop := S.Step s s' ∧ ∀ i e, s'.trace = (i, e) :: s.trace → P s.world s.trace i e.command

theorem steps_of_where {P : W → Trace C R → ℕ → C → Prop} {s s' : State C R α W}
    (h : Relation.ReflTransGen (S.StepWhere P) s s') : Relation.ReflTransGen S.Step s s' := by
  induction h with
  | refl => exact .refl
  | tail _ hs ih => exact ih.tail hs.1

/-- Programs may be started before anything happens, whatever the condition. -/
theorem stepsWhere_programs {P : W → Trace C R → ℕ → C → Prop} (w : W) (ps : List (Program C R α))
    (hps : ∀ p ∈ ps, S.entry p) :
    Relation.ReflTransGen (S.StepWhere P) ⟨w, [], []⟩ ⟨w, ps, []⟩ := by
  induction ps using List.reverseRecOn with
  | nil => exact .refl
  | append_singleton ps p ih =>
      have hp : p ∈ ps ++ [p] := List.mem_append_right _ List.mem_cons_self
      exact (ih fun q hq => hps q (List.mem_append_left _ hq)).tail
        ⟨.start p (hps p hp), fun _ _ h => by cases h⟩

/-- An invariant of the runs whose commands all meet a condition. -/
theorem invariant_where {D : Contract C R α} {P : W → Trace C R → ℕ → C → Prop}
    {I : W → Trace C R → Prop} (hentry : ∀ p, S.entry p → p.Follows S.possible D.allowed D.ends [])
    (hinit : ∀ w, init w → I w [])
    (hcall : ∀ w t i c r w', I w t → D.allowed (historyOf i t) c → S.exec w c r w' → P w t i c →
      I w' ((i, ⟨c, r⟩) :: t))
    (henv : ∀ w t w', I w t → S.environment w w' → I w' t) {w : W} (hw : init w)
    {s : State C R α W} (h : Relation.ReflTransGen (S.StepWhere P) ⟨w, [], []⟩ s) :
    I s.world s.trace := by
  induction h with
  | refl => exact hinit w hw
  | @tail s s' hrest hs ih =>
      have hreach : S.Reachable init s := (Reachable.start hw).steps (steps_of_where hrest)
      obtain ⟨hstep, hP⟩ := hs
      cases hstep with
      | start p hp => exact ih
      | call i c k r hi hexec =>
          exact hcall _ _ i c r _ ih (follows_of_reachable hentry hreach i _ hi).1 hexec
            (hP i ⟨c, r⟩ rfl)
      | crash i => exact ih
      | environment he => exact henv _ _ _ ih he

/-- Let process `i` issue its next `n` commands, as long as a condition on the world and on what has
happened so far holds. -/
def playWhere (answer : W → (c : C) → R c × W) (P : W → Trace C R → ℕ → C → Prop)
    [∀ w t i, DecidablePred (P w t i)] (i : ℕ) : ℕ → State C R α W → State C R α W
  | 0, s => s
  | n + 1, s =>
      match s.programs[i]? with
      | some (.call c k) =>
          if P s.world s.trace i c then
            playWhere answer P i n ⟨(answer s.world c).2, s.programs.set i (k (answer s.world c).1),
              (i, ⟨c, (answer s.world c).1⟩) :: s.trace⟩
          else s
      | _ => s

/-- Let processes issue commands in turn: the process and the number of its commands. -/
def playAllWhere (answer : W → (c : C) → R c × W) (P : W → Trace C R → ℕ → C → Prop)
    [∀ w t i, DecidablePred (P w t i)] (turns : List (ℕ × ℕ)) (s : State C R α W) :
    State C R α W := turns.foldl (fun s turn => playWhere answer P turn.1 turn.2 s) s

section PlayWhere

variable {answer : W → (c : C) → R c × W} {P : W → Trace C R → ℕ → C → Prop}
  [∀ w t i, DecidablePred (P w t i)]

theorem steps_playWhere (hanswer : ∀ w c, S.exec w c (answer w c).1 (answer w c).2) {i : ℕ} (n : ℕ)
    (s : State C R α W) : Relation.ReflTransGen (S.StepWhere P) s (playWhere answer P i n s) := by
  induction n generalizing s with
  | zero => exact .refl
  | succ n ih =>
      unfold playWhere
      split
      · rename_i c k hnext
        split
        · rename_i hP
          obtain ⟨w, ps, t⟩ := s
          refine .head ⟨.call i c k _ hnext (hanswer w c), fun j e he => ?_⟩ (ih _)
          cases he
          exact hP
        · exact .refl
      · exact .refl

theorem steps_playAllWhere (hanswer : ∀ w c, S.exec w c (answer w c).1 (answer w c).2)
    (turns : List (ℕ × ℕ)) (s : State C R α W) :
    Relation.ReflTransGen (S.StepWhere P) s (playAllWhere answer P turns s) := by
  induction turns generalizing s with
  | nil => exact .refl
  | cons turn turns ih => exact (steps_playWhere hanswer turn.2 s).trans (ih _)

end PlayWhere

/-- Let process `i` issue its next `n` commands, with the given answers, as long as the condition
holds. -/
def play (answer : W → (c : C) → R c × W) (P : W → C → Prop) [∀ w, DecidablePred (P w)] (i : ℕ) :
    ℕ → State C R α W → State C R α W
  | 0, s => s
  | n + 1, s =>
      match s.programs[i]? with
      | some (.call c k) =>
          if P s.world c then
            play answer P i n ⟨(answer s.world c).2, s.programs.set i (k (answer s.world c).1),
              (i, ⟨c, (answer s.world c).1⟩) :: s.trace⟩
          else s
      | _ => s

section Play

variable {answer : W → (c : C) → R c × W} {P : W → C → Prop} [∀ w, DecidablePred (P w)]

/-- Commands that are played are steps. -/
theorem steps_play (hanswer : ∀ w c, S.exec w c (answer w c).1 (answer w c).2) {i : ℕ} (n : ℕ)
    (s : State C R α W) : Relation.ReflTransGen (S.restrict P).Step s (play answer P i n s) := by
  induction n generalizing s with
  | zero => exact .refl
  | succ n ih =>
      unfold play
      split
      · rename_i c k hnext
        split
        · rename_i hP
          obtain ⟨w, ps, t⟩ := s
          exact .head (.call i c k _ hnext ⟨hanswer w c, hP⟩) (ih _)
        · exact .refl
      · exact .refl

theorem reachable_play (hanswer : ∀ w c, S.exec w c (answer w c).1 (answer w c).2) {i : ℕ} (n : ℕ)
    {s : State C R α W} (hs : (S.restrict P).Reachable init s) :
    (S.restrict P).Reachable init (play answer P i n s) := hs.steps (steps_play hanswer n s)

/-- One command that is played is a step. -/
theorem step_play (hanswer : ∀ w c, S.exec w c (answer w c).1 (answer w c).2) {i : ℕ}
    {s : State C R α W} (hnext : s.programs[i]?.any Program.isPending = true) :
    S.Step s (play answer (fun _ _ => True) i 1 s) := by
  obtain ⟨p, hp, hpending⟩ := (Option.any_eq_true _ _).mp hnext
  cases p with
  | done a => cases hpending
  | crashed => cases hpending
  | call c k =>
      obtain ⟨w, ps, t⟩ := s
      simp only [play, hp, if_true]
      exact .call i c k _ hp (hanswer w c)

/-- Let processes issue commands in turn: the process and the number of its commands. -/
def playAll (answer : W → (c : C) → R c × W) (P : W → C → Prop) [∀ w, DecidablePred (P w)]
    (turns : List (ℕ × ℕ)) (s : State C R α W) : State C R α W :=
  turns.foldl (fun s turn => play answer P turn.1 turn.2 s) s

theorem steps_playAll (hanswer : ∀ w c, S.exec w c (answer w c).1 (answer w c).2)
    (turns : List (ℕ × ℕ)) (s : State C R α W) :
    Relation.ReflTransGen (S.restrict P).Step s (playAll answer P turns s) := by
  induction turns generalizing s with
  | nil => exact .refl
  | cons turn turns ih => exact (steps_play hanswer turn.2 s).trans (ih _)

end Play

end System

end Gjallar.Processes

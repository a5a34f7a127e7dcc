import Gjallar.Processes

/-!
# Programs that may raise

Programs with exceptions over the commands of a system, with the rules by which a program is shown
to keep to a contract and the rules for its uninterrupted runs. A history only grows, so what holds
of an earlier history is at hand in the continuation.
-/
namespace Gjallar.Processes

/-- A program that returns a value or raises, over commands that answer or raise. -/
abbrev Fallible (C : Type) (V : C → Type) (ε α : Type) :=
  ExceptT ε (Program C fun c => Except ε (V c)) α

variable {C : Type} {V : C → Type} {ε α β : Type}

namespace Fallible

/-- Issue one command. -/
def call (c : C) : Fallible C V ε (V c) :=
  ExceptT.mk (Program.send (R := fun c => Except ε (V c)) c)

/-- Hand on what a program returned or raised. -/
def attempt (p : Fallible C V ε α) : Fallible C V ε (Except ε α) :=
  ExceptT.mk (p.run >>= fun r => .done (.ok r))

/-- Translate what a program raises. -/
def raising (f : ε → ε) (p : Fallible C V ε α) : Fallible C V ε α :=
  ExceptT.mk (p.run >>= fun r => .done (r.mapError f))

theorem run_bind (p : Fallible C V ε α) (f : α → Fallible C V ε β) :
    (p >>= f).run = p.run >>= fun
      | .ok a => (f a).run
      | .error e => .done (.error e) := rfl

end Fallible

/-! ### Contracts -/

/-- The rule of sequential composition for any statement about the end. -/
theorem Fallible.follows_bind {possible : (c : C) → Except ε (V c) → Prop}
    {allowed : History C (fun c => Except ε (V c)) → C → Prop}
    {ends : (History C fun c => Except ε (V c)) → Except ε β → Prop}
    {h : History C fun c => Except ε (V c)} {p : Fallible C V ε α} {f : α → Fallible C V ε β}
    (hp : Program.Follows possible allowed (fun h' r =>
      (∀ a, r = .ok a → Program.Follows possible allowed ends h' (f a).run) ∧
      ∀ e, r = .error e → ends h' (.error e)) h p.run) :
    Program.Follows possible allowed ends h (p >>= f).run := by
  rw [run_bind]
  refine Program.Follows.bind (Program.Follows.mono hp ?_)
  rintro h' r ⟨hok, herror⟩
  cases r with
  | ok a => exact hok a rfl
  | error e => exact herror e rfl

/-- Every command of the program is allowed after its history, and a value it returns is as
stated. -/
def Fallible.Obeys (possible : (c : C) → Except ε (V c) → Prop)
    (allowed : History C (fun c => Except ε (V c)) → C → Prop)
    (h : History C fun c => Except ε (V c)) (p : Fallible C V ε α)
    (Q : (History C fun c => Except ε (V c)) → α → Prop) : Prop :=
  Program.Follows possible allowed (fun h' r => h <:+ h' ∧ ∀ a, r = .ok a → Q h' a) h p.run

namespace Fallible.Obeys

variable {possible : (c : C) → Except ε (V c) → Prop}
  {allowed : History C (fun c => Except ε (V c)) → C → Prop}
  {h : History C fun c => Except ε (V c)} {p : Fallible C V ε α}
  {Q : (History C fun c => Except ε (V c)) → α → Prop}

/-- The rule of a command. -/
theorem call {c : C} (hc : allowed h c) : Obeys possible allowed h (call c) fun h' a =>
    h' = ⟨c, .ok a⟩ :: h ∧ possible c (.ok a) := by
  refine ⟨hc, fun r hr => ⟨List.suffix_cons _ h, fun a ha => ?_⟩⟩
  cases ha
  exact ⟨rfl, hr⟩

theorem pure {a : α} (ha : Q h a) : Obeys possible allowed h (pure a : Fallible C V ε α) Q := by
  refine ⟨List.suffix_rfl, fun b hb => ?_⟩
  cases hb
  exact ha

theorem throw (e : ε) : Obeys possible allowed h (throw e : Fallible C V ε α) Q :=
  ⟨List.suffix_rfl, fun _ hb => by cases hb⟩

theorem mono {Q' : (History C fun c => Except ε (V c)) → α → Prop}
    (hp : Obeys possible allowed h p Q)
    (himp : ∀ h' a, h <:+ h' → Q h' a → Q' h' a) : Obeys possible allowed h p Q' :=
  Program.Follows.mono hp fun h' _ hr => ⟨hr.1, fun a ha => himp h' a hr.1 (hr.2 a ha)⟩

/-- The rule of sequential composition. -/
theorem bind {f : α → Fallible C V ε β} {Q' : (History C fun c => Except ε (V c)) → β → Prop}
    (hp : Obeys possible allowed h p Q)
    (hf : ∀ h' a, h <:+ h' → Q h' a → Obeys possible allowed h' (f a) Q') :
    Obeys possible allowed h (p >>= f) Q' := by
  unfold Obeys
  rw [run_bind]
  refine Program.Follows.bind (Program.Follows.mono hp ?_)
  rintro h' r ⟨hsuffix, hr⟩
  cases r with
  | error e => exact ⟨hsuffix, fun _ hb => by cases hb⟩
  | ok a =>
      refine Program.Follows.mono (hf h' a hsuffix (hr a rfl)) ?_
      exact fun h'' _ hends => ⟨hsuffix.trans hends.1, hends.2⟩

/-- The rule of a program whose exceptions are caught. -/
theorem attempt (hp : Obeys possible allowed h p Q) :
    Obeys possible allowed h (attempt p) fun h' r => ∀ a, r = .ok a → Q h' a := by
  refine Program.Follows.bind (Program.Follows.mono hp ?_)
  rintro h' r ⟨hsuffix, hr⟩
  refine ⟨hsuffix, fun b hb => ?_⟩
  cases hb
  exact hr

theorem raising (f : ε → ε) (hp : Obeys possible allowed h p Q) :
    Obeys possible allowed h (raising f p) Q := by
  refine Program.Follows.bind (Program.Follows.mono hp ?_)
  rintro h' r ⟨hsuffix, hr⟩
  refine ⟨hsuffix, fun a ha => hr a ?_⟩
  cases r with
  | error e => cases ha
  | ok b =>
      cases ha
      rfl

end Fallible.Obeys

end Gjallar.Processes

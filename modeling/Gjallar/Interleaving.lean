import Gjallar.Transactions

/-!
# Interleaved transactions under one lock

Any number of transactions run on one committed state. A step is a statement of one of them, the
grant of the lock that at most one of them holds, a commit, a rollback, or a commit of another
party. What a script guarantees when it runs among others, every commit of it guarantees.
-/
namespace Gjallar.Interleaving

open Gjallar.Transactions

/-- The transactions that can run, what other parties commit, and how a running transaction sees a
commit of others. -/
structure Setting (σ ε ι : Type) : Type 1 where
  Result : ι → Type
  script : (i : ι) → Script σ ε (Result i)
  outside : σ → σ → Prop
  sees : Txn σ → Txn σ → Prop

variable {σ ε ι : Type} {S : Setting σ ε ι}

/-- A running transaction: what is left of its script, what it sees, and whether it has the lock. -/
structure Running (S : Setting σ ε ι) : Type 1 where
  label : ι
  rest : Script σ ε (S.Result label)
  view : σ
  held : Bool

def Running.txn (x : Running S) (base : σ) : Txn σ := ⟨base, x.view, x.held⟩

/-- What a running transaction is after a commit of others. -/
def Adjusts (base base' : σ) (x x' : Running S) : Prop :=
  ∃ view, x' = { x with view := view } ∧ S.sees (x.txn base) ⟨base', view, x.held⟩

structure World (S : Setting σ ε ι) : Type 1 where
  base : σ
  running : List (Running S)

/-- A step, with the transaction that it commits. -/
inductive Step : World S → Option ι → World S → Prop
  | start {base : σ} {xs : List (Running S)} (i : ι) :
      Step ⟨base, xs⟩ none ⟨base, xs ++ [⟨i, S.script i, base, false⟩]⟩
  | statement {base view db : σ} {pre post : List (Running S)} {i : ι} {held : Bool} {β : Type}
      {f : σ → Except ε (β × σ)} {k : β → Script σ ε (S.Result i)} {b : β}
      (hf : f view = .ok (b, db)) : Step ⟨base, pre ++ ⟨i, .statement f k, view, held⟩ :: post⟩ none
        ⟨base, pre ++ ⟨i, k b, db, held⟩ :: post⟩
  | lock {base view : σ} {pre post : List (Running S)} {i : ι} {held : Bool}
      {k : Script σ ε (S.Result i)} (hfree : ∀ x ∈ pre ++ post, x.held = false) :
      Step ⟨base, pre ++ ⟨i, .lock k, view, held⟩ :: post⟩ none
        ⟨base, pre ++ ⟨i, k, view, true⟩ :: post⟩
  | commit {base view : σ} {pre post xs : List (Running S)} {i : ι} {held : Bool} {a : S.Result i}
      (hothers : List.Forall₂ (Adjusts base view) (pre ++ post) xs) :
      Step ⟨base, pre ++ ⟨i, .done a, view, held⟩ :: post⟩ (some i) ⟨view, xs⟩
  | rollback {base : σ} {pre post : List (Running S)} {x : Running S} :
      Step ⟨base, pre ++ x :: post⟩ none ⟨base, pre ++ post⟩
  | outside {base base' : σ} {xs xs' : List (Running S)} (h : S.outside base base')
      (hothers : List.Forall₂ (Adjusts base base') xs xs') : Step ⟨base, xs⟩ none ⟨base', xs'⟩

/-- The worlds reached from a state without transactions. -/
inductive Reachable (Initial : σ → Prop) : World S → Prop
  | initial {base : σ} (h : Initial base) : Reachable Initial ⟨base, []⟩
  | step {w w' : World S} {l : Option ι} (h : Reachable Initial w) (hs : Step w l w') :
      Reachable Initial w'

/-- Runs from one world to another. -/
inductive Steps : World S → World S → Prop
  | refl (w : World S) : Steps w w
  | step {w v w' : World S} {l : Option ι} (h : Steps w v) (hs : Step v l w') : Steps w w'

/-! ### Scripts among others -/

section Ends

variable {E : Txn σ → Txn σ → Prop} {α : Type}

/-- A script that runs to its commit among others. -/
def Ends (E : Txn σ → Txn σ → Prop) (s : Script σ ε α) (t : Txn σ) (a : α) (t' : Txn σ) : Prop :=
  ∃ u, Runs E s t (.ok a) u ∧ E u t'

theorem Ends.commits {s : Script σ ε α} {t t' : Txn σ} {a : α} (h : Ends E s t a t') :
    Commits E s t (.ok a) t'.base t'.view := by
  obtain ⟨u, hrun, henv⟩ := h
  exact .commit hrun henv

/-- What the others do first can be counted to the run. -/
theorem Ends.after {s : Script σ ε α} {t u t' : Txn σ} {a : α} (h : Ends E s u a t')
    (htrans : ∀ {t u v}, E t u → E u v → E t v) (henv : E t u) : Ends E s t a t' := by
  obtain ⟨v, hrun, hlast⟩ := h
  cases hrun with
  | done _ _ => exact ⟨t, .done _ _, htrans henv hlast⟩
  | statement henv' hf hrest => exact ⟨v, .statement (htrans henv henv') hf hrest, hlast⟩
  | lock henv' hrest => exact ⟨v, .lock (htrans henv henv') hrest, hlast⟩

end Ends

/-- What the commits of each transaction guarantee, when the others keep to `E`; and the others keep
to it. -/
structure Guaranteed (S : Setting σ ε ι) (E : Txn σ → Txn σ → Prop)
    (G : ι → Bool → σ → σ → Prop) : Prop where
  refl : ∀ t, E t t
  trans : ∀ {t u v}, E t u → E u v → E t v
  ends : ∀ {i s a t}, Ends E (S.script i) (Txn.start s) a t → G i t.held t.base t.view
  committed : ∀ {i held t t'}, G i held t.base t'.base → (held = true → t.held = false) →
    S.sees t t' → E t t'
  outside : ∀ {t t'}, S.outside t.base t'.base → S.sees t t' → E t t'

/-- At most one transaction has the lock, and each runs as its script does among others. -/
structure Explained (E : Txn σ → Txn σ → Prop) (w : World S) : Prop where
  exclusive : w.running.Pairwise fun x y => ¬ (x.held = true ∧ y.held = true)
  ends : ∀ x ∈ w.running, ∃ s, ∀ a t, Ends E x.rest (x.txn w.base) a t →
    Ends E (S.script x.label) (Txn.start s) a t

section Explained

variable {E : Txn σ → Txn σ → Prop} {G : ι → Bool → σ → σ → Prop} {w w' : World S}
  {l : Option ι}

theorem Explained.initial (base : σ) : Explained E (⟨base, []⟩ : World S) :=
  ⟨.nil, fun _ hx => absurd hx List.not_mem_nil⟩

/-- A running transaction that is replaced by a later stage of itself. -/
theorem Explained.replace {base : σ} {pre post : List (Running S)} {x x' : Running S}
    (h : Explained E (⟨base, pre ++ x :: post⟩ : World S))
    (hheld : x'.held = true → x.held = true ∨ ∀ y ∈ pre ++ post, y.held = false)
    (hends : ∀ s, (∀ a t, Ends E x.rest (x.txn base) a t →
        Ends E (S.script x.label) (Txn.start s) a t) →
      ∀ a t, Ends E x'.rest (x'.txn base) a t → Ends E (S.script x'.label) (Txn.start s) a t) :
    Explained E (⟨base, pre ++ x' :: post⟩ : World S) := by
  obtain ⟨hexclusive, hall⟩ := h
  rw [List.pairwise_append, List.pairwise_cons] at hexclusive
  obtain ⟨hpre, ⟨hx, hpost⟩, hcross⟩ := hexclusive
  have hfree : ∀ y ∈ pre ++ post, ¬ (x'.held = true ∧ y.held = true) := by
    rintro y hy ⟨hx', hy'⟩
    rcases hheld hx' with hxh | hnone
    · rcases List.mem_append.mp hy with hy | hy
      · exact hcross y hy x List.mem_cons_self ⟨hy', hxh⟩
      · exact hx y hy ⟨hxh, hy'⟩
    · rw [hnone y hy] at hy'
      cases hy'
  constructor
  · rw [List.pairwise_append, List.pairwise_cons]
    refine ⟨hpre, ⟨fun y hy => hfree y (List.mem_append_right _ hy), hpost⟩, fun y hy z hz => ?_⟩
    rcases List.mem_cons.mp hz with rfl | hz
    · exact fun hyz => hfree y (List.mem_append_left _ hy) ⟨hyz.2, hyz.1⟩
    · exact hcross y hy z (List.mem_cons_of_mem _ hz)
  · intro y hy
    rcases List.mem_append.mp hy with hy | hy
    · exact hall y (List.mem_append_left _ hy)
    rcases List.mem_cons.mp hy with rfl | hy
    · obtain ⟨s, hs⟩ := hall x (by simp)
      exact ⟨s, hends s hs⟩
    · exact hall y (List.mem_append_right _ (List.mem_cons_of_mem _ hy))

/-- After a commit that the others could expect. -/
theorem Explained.adjust (hG : Guaranteed S E G) {base base' : σ} {xs xs' : List (Running S)}
    (h : Explained E (⟨base, xs⟩ : World S)) (hothers : List.Forall₂ (Adjusts base base') xs xs')
    (hE : ∀ x ∈ xs, ∀ t', t'.base = base' → S.sees (x.txn base) t' → E (x.txn base) t') :
    Explained E (⟨base', xs'⟩ : World S) := by
  obtain ⟨hexclusive, hall⟩ := h
  induction hothers with
  | nil => exact .initial base'
  | @cons x x' xs xs' hx hrest ih =>
      rw [List.pairwise_cons] at hexclusive
      obtain ⟨hpairs, hends⟩ := ih (fun y hy => hE y (List.mem_cons_of_mem _ hy)) hexclusive.2
        fun y hy => hall y (List.mem_cons_of_mem _ hy)
      obtain ⟨view, rfl, hsees⟩ := hx
      constructor
      · refine List.pairwise_cons.mpr ⟨fun y' hy' => ?_, hpairs⟩
        obtain ⟨i, hi, rfl⟩ := List.mem_iff_getElem.mp hy'
        have hlen := hrest.length_eq
        obtain ⟨_, hy, -⟩ := hrest.get (hlen ▸ hi) hi
        have hheld : (xs'.get ⟨i, hi⟩).held = (xs.get ⟨i, hlen ▸ hi⟩).held := by rw [hy]
        have hpair := hexclusive.1 _ (List.get_mem xs ⟨i, hlen ▸ hi⟩)
        rw [← hheld] at hpair
        exact hpair
      · intro y hy
        rcases List.mem_cons.mp hy with rfl | hy
        · obtain ⟨s, hs⟩ := hall x List.mem_cons_self
          have henv : E (x.txn base) ⟨base', view, x.held⟩ :=
            hE x List.mem_cons_self _ rfl hsees
          exact ⟨s, fun a t ht => hs a t (ht.after hG.trans henv)⟩
        · exact hends y hy

/-- A transaction that is over. -/
theorem Explained.remove {base : σ} {pre post : List (Running S)} {x : Running S}
    (h : Explained E (⟨base, pre ++ x :: post⟩ : World S)) :
    Explained E (⟨base, pre ++ post⟩ : World S) :=
  ⟨h.exclusive.sublist (List.Sublist.append_left (List.sublist_cons_self _ _) _), fun y hy =>
    h.ends y ((List.Sublist.append_left (List.sublist_cons_self _ _) _).subset hy)⟩

/-- What a commit guarantees. -/
theorem Explained.commit (hG : Guaranteed S E G) {base view : σ} {pre post : List (Running S)}
    {i : ι} {held : Bool} {a : S.Result i}
    (h : Explained E (⟨base, pre ++ ⟨i, .done a, view, held⟩ :: post⟩ : World S)) :
    G i held base view := by
  obtain ⟨s, hs⟩ := h.ends ⟨i, .done a, view, held⟩ (by simp)
  exact hG.ends (hs a ⟨base, view, held⟩ ⟨_, .done _ _, hG.refl _⟩)

theorem Explained.step (hG : Guaranteed S E G) (h : Explained E w) (hs : Step w l w') :
    Explained E w' := by
  cases hs with
  | @start base xs i =>
      obtain ⟨hexclusive, hall⟩ := h
      constructor
      · rw [List.pairwise_append]
        refine ⟨hexclusive, List.pairwise_singleton _ _, fun x _ y hy => ?_⟩
        rw [List.mem_singleton.mp hy]
        exact fun hboth => absurd hboth.2 Bool.false_ne_true
      · intro x hx
        rcases List.mem_append.mp hx with hx | hx
        · exact hall x hx
        · rw [List.mem_singleton.mp hx]
          exact ⟨base, fun _ _ ht => ht⟩
  | statement hf =>
      refine h.replace (fun hheld => .inl hheld) fun s hs a t ht => hs a t ?_
      obtain ⟨u, hrun, henv⟩ := ht
      exact ⟨u, .statement (hG.refl _) hf hrun, henv⟩
  | lock hfree =>
      refine h.replace (fun _ => .inr hfree) fun s hs a t ht => hs a t ?_
      obtain ⟨u, hrun, henv⟩ := ht
      exact ⟨u, .lock (hG.refl _) hrun, henv⟩
  | @commit base view pre post xs i held a hothers =>
      have hcommit := h.commit hG
      have hexclusive := h.exclusive
      rw [List.pairwise_append, List.pairwise_cons] at hexclusive
      obtain ⟨-, ⟨hpost, -⟩, hcross⟩ := hexclusive
      refine h.remove.adjust hG hothers fun x hx t' ht' hsees => ?_
      refine hG.committed (ht' ▸ hcommit) (fun hheld => ?_) hsees
      have hnot : ¬ x.held = true := by
        intro hx'
        rcases List.mem_append.mp hx with hx | hx
        · exact hcross x hx _ List.mem_cons_self ⟨hx', hheld⟩
        · exact hpost x hx ⟨hheld, hx'⟩
      exact Bool.eq_false_iff.mpr hnot
  | rollback => exact h.remove
  | outside hout hothers =>
      exact h.adjust hG hothers fun x _ t' ht' hsees => hG.outside (ht' ▸ hout) hsees

/-- How a step changes the committed state. -/
theorem Explained.base (hG : Guaranteed S E G) (h : Explained E w) (hs : Step w l w') :
    w'.base = w.base ∧ l = none ∨ S.outside w.base w'.base ∧ l = none ∨
      ∃ i held, l = some i ∧ G i held w.base w'.base := by
  cases hs with
  | start | statement | lock | rollback => exact .inl ⟨rfl, rfl⟩
  | outside hout => exact .inr (.inl ⟨hout, rfl⟩)
  | @commit base view pre post xs i held a hothers =>
      exact .inr (.inr ⟨i, held, rfl, h.commit hG⟩)

theorem explained_of_reachable (hG : Guaranteed S E G) {Initial : σ → Prop}
    (h : Reachable Initial w) : Explained E w := by
  induction h with
  | initial _ => exact .initial _
  | step _ hs ih => exact ih.step hG hs

/-- What every commit keeps holds in every reachable world. -/
theorem invariant_of_reachable (hG : Guaranteed S E G) {Initial I : σ → Prop}
    (hinitial : ∀ s, Initial s → I s) (houtside : ∀ s s', I s → S.outside s s' → I s')
    (hcommit : ∀ i held s s', I s → G i held s s' → I s') (h : Reachable Initial w) :
    I w.base := by
  induction h with
  | initial hs => exact hinitial _ hs
  | step h hs ih =>
      rcases (explained_of_reachable hG h).base hG hs with ⟨heq, -⟩ | ⟨hout, -⟩ | ⟨i, held, -, hg⟩
      · rwa [heq]
      · exact houtside _ _ ih hout
      · exact hcommit i held _ _ ih hg

theorem Reachable.steps {Initial : σ → Prop} (h : Reachable Initial w) (hs : Steps w w') :
    Reachable Initial w' := by
  induction hs with
  | refl => exact h
  | step _ hs ih => exact .step ih hs

end Explained

/-! ### Serial runs -/

section Serial

variable {base view view' : σ} {i : ι}

theorem Steps.trans {w v u : World S} (h : Steps w v) (h' : Steps v u) : Steps w u := by
  induction h' with
  | refl => exact h
  | step _ hs ih => exact ih.step hs

/-- What a script does alone is a run of the system. -/
theorem steps_of_alone (base : σ) (held : Bool) {s : Script σ ε (S.Result i)} {a : S.Result i}
    (h : s.alone view = .ok (a, view')) : ∃ held', Steps (⟨base, [⟨i, s, view, held⟩]⟩ : World S)
      ⟨base, [⟨i, .done a, view', held'⟩]⟩ := by
  induction s generalizing view held with
  | done b =>
      cases h
      exact ⟨held, .refl _⟩
  | fail e => cases h
  | statement f k ih =>
      cases hf : f view with
      | error e =>
          rw [Script.alone, hf] at h
          cases h
      | ok r =>
          rw [Script.alone, hf] at h
          obtain ⟨held', hsteps⟩ := ih r.1 held h
          have hfirst : Step (⟨base, [] ++ [⟨i, .statement f k, view, held⟩]⟩ : World S) none
              ⟨base, [] ++ [⟨i, k r.1, r.2, held⟩]⟩ := .statement hf
          exact ⟨held', (Steps.step (.refl _) hfirst).trans hsteps⟩
  | lock k ih =>
      obtain ⟨held', hsteps⟩ := ih true h
      have hfirst : Step (⟨base, [] ++ [⟨i, .lock k, view, held⟩]⟩ : World S) none
          ⟨base, [] ++ [⟨i, k, view, true⟩]⟩ := .lock fun x hx => absurd hx List.not_mem_nil
      exact ⟨held', (Steps.step (.refl _) hfirst).trans hsteps⟩

/-- The run and the commit of a transaction alone. -/
theorem commits_of_alone {a : S.Result i} (h : (S.script i).alone base = .ok (a, view)) :
    ∃ w, Steps (⟨base, []⟩ : World S) w ∧ w.base = base ∧ Step w (some i) ⟨view, []⟩ := by
  obtain ⟨held, hsteps⟩ := steps_of_alone base false h
  have hstart : Step (⟨base, []⟩ : World S) none ⟨base, [⟨i, S.script i, base, false⟩]⟩ := .start i
  have hcommit : Step (⟨base, [] ++ [⟨i, .done a, view, held⟩]⟩ : World S) (some i) ⟨view, []⟩ :=
    .commit .nil
  exact ⟨_, (Steps.step (.refl _) hstart).trans hsteps, rfl, hcommit⟩

/-- Transactions one after the other. -/
def serial (S : Setting σ ε ι) : List ι → σ → Except ε σ
  | [], s => .ok s
  | i :: rest, s => (S.script i).alone s >>= fun r => serial S rest r.2

theorem steps_of_serial {is : List ι} (h : serial S is base = .ok view) :
    Steps (⟨base, []⟩ : World S) ⟨view, []⟩ := by
  induction is generalizing base with
  | nil =>
      cases h
      exact .refl _
  | cons i rest ih =>
      cases halone : (S.script i).alone base with
      | error e =>
          rw [serial, halone] at h
          cases h
      | ok r =>
          rw [serial, halone] at h
          obtain ⟨w, hsteps, -, hcommit⟩ := commits_of_alone halone
          exact (hsteps.step hcommit).trans (ih h)

end Serial

end Gjallar.Interleaving

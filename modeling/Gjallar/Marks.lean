import Gjallar.Fallible
import Mathlib.Order.Nat

/-!
# What is done once for each mark

Every event of a trace was allowed after the history that its process then had. When each event of
a kind follows a mark of its own process, with none of the kind between, there are at most as many
of them as marks; so one mark in a whole trace stands for at most one event of any process.
-/
namespace Gjallar.Processes

section Traces

variable {C : Type} {R : C → Type} {α W : Type}

/-- Every event was allowed after the history of its process. -/
def AllowedTrace (allowed : History C R → C → Prop) (t : Trace C R) : Prop :=
  ∀ newer i e older, t = newer ++ (i, e) :: older → allowed (historyOf i older) e.command

theorem allowedTrace_nil {allowed : History C R → C → Prop} : AllowedTrace allowed [] := by
  intro newer i e older h
  cases newer <;> cases h

theorem AllowedTrace.cons {allowed : History C R → C → Prop} {t : Trace C R} {i : ℕ}
    {e : Event C R} (h : AllowedTrace allowed t) (he : allowed (historyOf i t) e.command) :
    AllowedTrace allowed ((i, e) :: t) := by
  intro newer j x older heq
  cases newer with
  | nil =>
      cases heq
      exact he
  | cons y newer =>
      obtain ⟨-, rfl⟩ := List.cons.inj heq
      exact h newer j x older rfl

/-- Every reachable trace keeps to the contract of the programs. -/
theorem Contract.allowed_of_trace {S : System C R α W} {init : W → Prop} {D : Contract C R α}
    (hentry : ∀ p, S.entry p → p.Follows S.possible D.allowed D.ends [])
    {s : State C R α W} (h : S.Reachable init s) : AllowedTrace D.allowed s.trace :=
  Contract.invariant (I := fun _ t => AllowedTrace D.allowed t) hentry (fun _ _ => allowedTrace_nil)
    (fun _ _ _ _ _ _ ht hc _ => ht.cons hc) (fun _ _ _ ht _ => ht) h

/-- Each event of the kind follows a mark, with none of the kind between. -/
def Marked (kind mark : Event C R → Bool) (h : History C R) : Prop :=
  ∀ newer e older, h = newer ++ e :: older → kind e = true →
    ∃ between m past, older = between ++ m :: past ∧ mark m = true ∧
      ∀ x ∈ between, kind x = false

section Count

variable {kind mark : Event C R → Bool} {h : History C R} {t : Trace C R} {i : ℕ}

theorem Marked.older {e : Event C R} (hm : Marked kind mark (e :: h)) : Marked kind mark h :=
  fun newer x older heq hx => hm (e :: newer) x older (congrArg _ heq) hx

theorem Marked.append {new : History C R} (hm : Marked kind mark (new ++ h)) :
    Marked kind mark h := by
  induction new with
  | nil => exact hm
  | cons e new ih => exact ih hm.older

/-- No more events of the kind than marks. -/
theorem Marked.countP_le (hm : Marked kind mark h)
    (hdisjoint : ∀ e, kind e = true → mark e = false) : h.countP kind ≤ h.countP mark := by
  induction hn : h.length using Nat.strongRecOn generalizing h with
  | _ n ih =>
      cases h with
      | nil => exact le_refl _
      | cons e h =>
          have hlen : h.length < n := hn ▸ Nat.lt_succ_self _
          by_cases he : kind e = true
          · obtain ⟨between, m, past, rfl, hmark, hnone⟩ := hm [] e h rfl he
            have hkind : kind m = false := by
              by_contra hkind
              rw [Bool.not_eq_false] at hkind
              rw [hdisjoint m hkind] at hmark
              cases hmark
            have hbetween : between.countP kind = 0 :=
              List.countP_eq_zero.mpr fun x hx => by rw [hnone x hx]; exact Bool.false_ne_true
            have hpast : past.countP kind ≤ past.countP mark := by
              refine ih past.length (lt_of_le_of_lt ?_ hlen) ?_ rfl
              · rw [List.length_append, List.length_cons]
                omega
              · exact (hm.older.append).older
            rw [List.countP_cons_of_pos he, List.countP_append, hbetween,
              List.countP_cons_of_neg (by rw [hkind]; exact Bool.false_ne_true),
              List.countP_cons_of_neg (by rw [hdisjoint e he]; exact Bool.false_ne_true),
              List.countP_append, List.countP_cons_of_pos hmark]
            omega
          · rw [List.countP_cons_of_neg he]
            exact (ih h.length hlen hm.older rfl).trans (by rw [List.countP_cons]; omega)

theorem countP_historyOf_le (p : Event C R → Bool) (i : ℕ) (t : Trace C R) :
    (historyOf i t).countP p ≤ t.countP fun e => p e.2 := by
  induction t with
  | nil => exact le_refl _
  | cons e t ih =>
      obtain ⟨j, e⟩ := e
      by_cases hj : j = i
      · subst hj
        rw [historyOf_cons_self, List.countP_cons, List.countP_cons]
        exact Nat.add_le_add_right ih _
      · rw [historyOf_cons_ne hj, List.countP_cons]
        exact le_trans ih (Nat.le_add_right _ _)

/-- The events of one process are all that a trace counts. -/
theorem countP_eq_historyOf {p : Event C R → Bool}
    (h : ∀ j e, (j, e) ∈ t → p e = true → j = i) :
    (t.countP fun e => p e.2) = (historyOf i t).countP p := by
  induction t with
  | nil => rfl
  | cons e t ih =>
      obtain ⟨j, e⟩ := e
      have hrest := ih fun k x hx => h k x (List.mem_cons_of_mem _ hx)
      by_cases hj : j = i
      · subst hj
        rw [historyOf_cons_self, List.countP_cons, List.countP_cons, hrest]
      · have hp : ¬ p e = true := fun hp => hj (h j e List.mem_cons_self hp)
        rw [historyOf_cons_ne hj, ← hrest]
        exact List.countP_cons_of_neg hp

theorem eq_of_countP_le_one {β : Type} {p : β → Bool} {l : List β} (h : l.countP p ≤ 1) {x y : β}
    (hx : x ∈ l) (hy : y ∈ l) (hpx : p x = true) (hpy : p y = true) : x = y := by
  rw [List.countP_eq_length_filter] at h
  have hx' : x ∈ l.filter p := List.mem_filter.mpr ⟨hx, hpx⟩
  have hy' : y ∈ l.filter p := List.mem_filter.mpr ⟨hy, hpy⟩
  cases hl : l.filter p with
  | nil =>
      rw [hl] at hx'
      cases hx'
  | cons z rest =>
      rw [hl, List.length_cons] at h
      have hrest : rest = [] := List.length_eq_zero_iff.mp (by omega)
      rw [hl, hrest] at hx' hy'
      rw [List.mem_singleton.mp hx', List.mem_singleton.mp hy']

/-- One mark in the whole trace stands for at most one event of the kind. -/
theorem countP_le_one_of_mark (hmarked : ∀ i, Marked kind mark (historyOf i t))
    (hdisjoint : ∀ e, kind e = true → mark e = false)
    (hone : (t.countP fun e => mark e.2) ≤ 1) : (t.countP fun e => kind e.2) ≤ 1 := by
  have howner : ∀ i e, (i, e) ∈ t → kind e = true → ∃ m, (i, m) ∈ t ∧ mark m = true := by
    intro i e he hkind
    obtain ⟨newer, older, hh⟩ := List.append_of_mem (mem_historyOf.mpr he)
    obtain ⟨between, m, past, rfl, hmark, -⟩ := hmarked i newer e older hh hkind
    exact ⟨m, mem_historyOf.mp (by rw [hh]; simp), hmark⟩
  by_cases hsome : ∃ i e, (i, e) ∈ t ∧ kind e = true
  · obtain ⟨i, e, he, hkind⟩ := hsome
    obtain ⟨m, hm, hmark⟩ := howner i e he hkind
    have hsame : ∀ j x, (j, x) ∈ t → kind x = true → j = i := by
      intro j x hx hx'
      obtain ⟨m', hm', hmark'⟩ := howner j x hx hx'
      exact congrArg Prod.fst (eq_of_countP_le_one hone hm' hm hmark' hmark)
    calc (t.countP fun e => kind e.2) = (historyOf i t).countP kind := countP_eq_historyOf hsame
      _ ≤ (historyOf i t).countP mark := (hmarked i).countP_le hdisjoint
      _ ≤ t.countP fun e => mark e.2 := countP_historyOf_le mark i t
      _ ≤ 1 := hone
  · refine le_trans (le_of_eq (List.countP_eq_zero.mpr ?_)) (Nat.zero_le 1)
    rintro ⟨i, e⟩ he hkind
    exact hsome ⟨i, e, he, hkind⟩

end Count

end Traces

namespace Fallible

variable {C : Type} {V : C → Type} {ε α β : Type}
  {possible : (c : C) → Except ε (V c) → Prop}
  {allowed : History C (fun c => Except ε (V c)) → C → Prop}

/-- Every command of the program is allowed after any history. -/
def Free (possible : (c : C) → Except ε (V c) → Prop)
    (allowed : History C (fun c => Except ε (V c)) → C → Prop) (p : Fallible C V ε α) : Prop :=
  ∀ h, Obeys possible allowed h p fun _ _ => True

theorem Free.pure (a : α) : Free possible allowed (pure a : Fallible C V ε α) :=
  fun _ => Obeys.pure trivial

theorem Free.throw (e : ε) : Free possible allowed (throw e : Fallible C V ε α) :=
  fun _ => Obeys.throw e

theorem Free.bind {p : Fallible C V ε α} {f : α → Fallible C V ε β}
    (hp : Free possible allowed p) (hf : ∀ a, Free possible allowed (f a)) :
    Free possible allowed (p >>= f) :=
  fun h => (hp h).bind fun h' a _ _ => hf a h'

theorem Free.call {c : C} (hc : ∀ h, allowed h c) : Free possible allowed (call c) :=
  fun h => (Obeys.call (hc h)).mono fun _ _ _ _ => trivial

/-- The program keeps to the contract whenever the fact held earlier. -/
def After (possible : (c : C) → Except ε (V c) → Prop)
    (allowed : History C (fun c => Except ε (V c)) → C → Prop)
    (K : History C (fun c => Except ε (V c)) → Prop) (p : Fallible C V ε α) : Prop :=
  ∀ h₀ h, K h₀ → h₀ <:+ h → Obeys possible allowed h p fun _ _ => True

section After

variable {K : History C (fun c => Except ε (V c)) → Prop} {p : Fallible C V ε α}
  {f : α → Fallible C V ε β} {h : History C fun c => Except ε (V c)}

/-- The fact is kept by a command that is always allowed. -/
theorem Free.after (hp : Free possible allowed p) (hf : ∀ a, After possible allowed K (f a)) :
    After possible allowed K (p >>= f) :=
  fun h₀ h hK hs => (hp h).bind fun h' a hs' _ => hf a h₀ h' hK (hs.trans hs')

/-- What follows knows what the first part has established. -/
theorem Obeys.next {Q : (History C fun c => Except ε (V c)) → α → Prop}
    (hp : Obeys possible allowed h p Q)
    (hf : ∀ a, After possible allowed (fun h => Q h a) (f a)) :
    Obeys possible allowed h (p >>= f) fun _ _ => True :=
  hp.bind fun h' a _ hQ => hf a h' h' hQ List.suffix_rfl

end After

end Fallible

end Gjallar.Processes

import Mathlib.Data.List.Sort
import Mathlib.Data.Set.Card

/-!
# The first entries of a stable sort

A stable sort by a preorder brings the entries of a list, each with its position, into a strict
order: that of the preorder, and that of the positions where the preorder says nothing. Which
entries come first is then a matter of counting the entries ahead of them.
-/
namespace Gjallar.StableRanks

variable {α β : Type} {l : List α} {k : ℕ}

/-! ### Orders by a key -/

/-- The order by a key, and a further order among equal keys. -/
def ThenBy [LinearOrder β] (key : α → β) (s : α → α → Prop) (a b : α) : Prop :=
  key a < key b ∨ key a = key b ∧ s a b

section ThenBy

variable [LinearOrder β] {key : α → β} {s : α → α → Prop}

instance [DecidableRel s] : DecidableRel (ThenBy key s) := fun a b =>
  inferInstanceAs (Decidable (key a < key b ∨ key a = key b ∧ s a b))

instance [Std.Total s] : Std.Total (ThenBy key s) where
  total a b := by
    rcases lt_trichotomy (key a) (key b) with h | h | h
    · exact .inl (.inl h)
    · rcases total_of s a b with hs | hs
      · exact .inl (.inr ⟨h, hs⟩)
      · exact .inr (.inr ⟨h.symm, hs⟩)
    · exact .inr (.inl h)

instance [IsTrans α s] : IsTrans α (ThenBy key s) where
  trans a b c := by
    rintro (hab | ⟨hab, hs⟩) (hbc | ⟨hbc, hs'⟩)
    · exact .inl (hab.trans hbc)
    · exact .inl (hbc ▸ hab)
    · exact .inl (hab ▸ hbc)
    · exact .inr ⟨hab.trans hbc, trans_of s hs hs'⟩

theorem ThenBy.key_le {a b : α} (h : ThenBy key s a b) : key a ≤ key b := by
  rcases h with h | ⟨h, -⟩
  · exact h.le
  · exact h.le

end ThenBy

/-! ### Stability -/

/-- The order of a stable sort: by `r`, and where `r` holds both ways by the order `q` of the
list. -/
def Stably (r q : α → α → Prop) (a b : α) : Prop := r a b ∧ (r b a → q a b)

theorem Stably.asymm {r q : α → α → Prop} (hq : ∀ a b, q a b → ¬ q b a) {a b : α}
    (h : Stably r q a b) : ¬ Stably r q b a := fun h' =>
  hq a b (h.2 h'.1) (h'.2 h.1)

section Insertion

variable {r q : α → α → Prop} [DecidableRel r] [Std.Total r] [IsTrans α r]

theorem pairwise_orderedInsert {a : α} (ha : ∀ b ∈ l, q a b) (hl : l.Pairwise (Stably r q)) :
    (l.orderedInsert r a).Pairwise (Stably r q) := by
  induction l with
  | nil => exact List.pairwise_singleton _ a
  | cons b l ih =>
      rw [List.pairwise_cons] at hl
      rw [List.forall_mem_cons] at ha
      by_cases hab : r a b
      · rw [List.orderedInsert_cons_of_le r l hab, List.pairwise_cons, List.forall_mem_cons]
        refine ⟨⟨⟨hab, fun _ => ha.1⟩, fun c hc => ⟨?_, fun _ => ha.2 c hc⟩⟩, ?_⟩
        · exact trans_of r hab (hl.1 c hc).1
        · exact List.pairwise_cons.mpr hl
      · have hba : r b a := (total_of r a b).resolve_left hab
        rw [List.orderedInsert_of_not_le r l hab, List.pairwise_cons]
        refine ⟨fun c hc => ?_, ih ha.2 hl.2⟩
        rcases (List.mem_orderedInsert r).mp hc with rfl | hc
        · exact ⟨hba, fun h => absurd h hab⟩
        · exact hl.1 c hc

/-- Insertion sort is stable. -/
theorem pairwise_insertionSort (h : l.Pairwise q) :
    (l.insertionSort r).Pairwise (Stably r q) := by
  induction l with
  | nil => exact List.Pairwise.nil
  | cons a l ih =>
      rw [List.pairwise_cons] at h
      refine pairwise_orderedInsert (fun b hb => ?_) (ih h.2)
      exact h.1 b ((List.mem_insertionSort r).mp hb)

end Insertion

/-! ### Ranks -/

section Rank

variable {L : α → α → Prop}

theorem nodup_of_pairwise (hasymm : ∀ a b, L a b → ¬ L b a) (h : l.Pairwise L) : l.Nodup := by
  refine h.imp ?_
  rintro a _ hab rfl
  exact hasymm a a hab hab

theorem ncard_mem (h : l.Nodup) : {a | a ∈ l}.ncard = l.length := by
  classical
  have hset : {a | a ∈ l} = (l.toFinset : Set α) := by
    ext a
    simp
  rw [hset, Set.ncard_coe_finset, List.toFinset_card_of_nodup h]

/-- The first entries of a list in a strict order are those with few entries ahead. -/
theorem mem_take_iff (hasymm : ∀ a b, L a b → ¬ L b a) (h : l.Pairwise L) {a : α} :
    a ∈ l.take k ↔ a ∈ l ∧ {b | b ∈ l ∧ L b a}.ncard < k := by
  by_cases ha : a ∈ l
  swap
  · exact iff_of_false (fun h => ha (List.mem_of_mem_take h)) fun h => ha h.1
  rw [and_iff_right ha]
  obtain ⟨u, v, rfl⟩ := List.append_of_mem ha
  rw [List.pairwise_append, List.pairwise_cons] at h
  obtain ⟨hu, ⟨hv, -⟩, huv⟩ := h
  have hirrefl : ¬ L a a := fun hL => hasymm a a hL hL
  have hahead : {b | b ∈ u ++ a :: v ∧ L b a} = {b | b ∈ u} := by
    ext b
    refine ⟨?_, fun hb => ⟨List.mem_append_left _ hb, huv b hb a List.mem_cons_self⟩⟩
    rintro ⟨hb, hL⟩
    rcases List.mem_append.mp hb with hb | hb
    · exact hb
    · rcases List.mem_cons.mp hb with rfl | hb
      · exact absurd hL hirrefl
      · exact absurd hL (hasymm a b (hv b hb))
  rw [hahead, ncard_mem (nodup_of_pairwise hasymm hu)]
  by_cases hk : u.length < k
  · refine iff_of_true ?_ hk
    rw [List.take_append, List.mem_append]
    obtain ⟨m, hm⟩ : ∃ m, k - u.length = m + 1 := ⟨k - u.length - 1, by omega⟩
    rw [hm, List.take_succ_cons]
    exact .inr List.mem_cons_self
  · refine iff_of_false (fun hmem => ?_) hk
    rw [List.take_append_of_le_length (not_lt.mp hk)] at hmem
    exact hirrefl (huv a (List.mem_of_mem_take hmem) a List.mem_cons_self)

end Rank

/-! ### Entries with their positions -/

/-- The entries with a property, in the order of a stable sort. -/
def entriesBy (p : α → Bool) (r : α → α → Prop) [DecidableRel r] (l : List α) : List (α × ℕ) :=
  (l.zipIdx.filter fun e => p e.1).insertionSort fun a b => r a.1 b.1

/-- One entry is ahead of another: by the order, or by its position. -/
def Ahead (r : α → α → Prop) : α × ℕ → α × ℕ → Prop :=
  Stably (fun a b => r a.1 b.1) fun a b => a.2 < b.2

/-- One of the first `k` entries with a property. -/
def FirstOf (p : α → Bool) (r : α → α → Prop) (l : List α) (k : ℕ) (e : α × ℕ) : Prop :=
  (e ∈ l.zipIdx ∧ p e.1 = true) ∧
    {f | (f ∈ l.zipIdx ∧ p f.1 = true) ∧ Ahead r f e}.ncard < k

section Entries

variable {p : α → Bool} {r : α → α → Prop} {e : α × ℕ}

theorem Ahead.asymm {f : α × ℕ} (h : Ahead r e f) : ¬ Ahead r f e :=
  Stably.asymm (fun _ _ => Nat.lt_asymm) h

theorem pairwise_zipIdx (l : List α) : l.zipIdx.Pairwise fun a b => a.2 < b.2 := by
  have hindices : (l.zipIdx.map Prod.snd).Pairwise (· < ·) := by
    rw [List.zipIdx_map_snd]
    exact List.pairwise_lt_range'
  exact List.pairwise_map.mp hindices

variable [DecidableRel r]

theorem map_entriesBy : (entriesBy p r l).map Prod.fst = (l.filter p).insertionSort r := by
  have hfilter := List.filter_map (f := (Prod.fst : α × ℕ → α)) (p := p) (l := l.zipIdx)
  rw [List.zipIdx_map_fst] at hfilter
  rw [entriesBy, List.map_insertionSort _ r Prod.fst _ fun _ _ _ _ => Iff.rfl, hfilter]
  rfl

theorem mem_entriesBy : e ∈ entriesBy p r l ↔ e ∈ l.zipIdx ∧ p e.1 = true := by
  rw [entriesBy, List.mem_insertionSort, List.mem_filter]

variable [Std.Total r] [IsTrans α r]

theorem pairwise_entriesBy : (entriesBy p r l).Pairwise (Ahead r) := by
  have htotal : Std.Total fun a b : α × ℕ => r a.1 b.1 := ⟨fun a b => total_of r a.1 b.1⟩
  have htrans : IsTrans (α × ℕ) fun a b => r a.1 b.1 := ⟨fun _ _ _ => trans_of r⟩
  exact pairwise_insertionSort ((pairwise_zipIdx l).sublist List.filter_sublist)

theorem mem_take_entriesBy : e ∈ (entriesBy p r l).take k ↔ FirstOf p r l k e := by
  rw [mem_take_iff (fun _ _ => Ahead.asymm) pairwise_entriesBy, FirstOf, mem_entriesBy]
  simp only [mem_entriesBy]

end Entries

end Gjallar.StableRanks

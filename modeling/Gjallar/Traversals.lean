import Mathlib.Control.Basic
import Mathlib.Data.List.Forall2

/-!
# Traversals of a list

A function that may fail, applied to each entry of a list: the results are those of the entries,
in their order.
-/
namespace Gjallar.Traversals

variable {ε α β : Type}

theorem mapM_eq_some {f : α → Option β} {xs : List α} {ys : List β} :
    xs.mapM f = some ys ↔ xs.Forall₂ (fun x y => f x = some y) ys := by
  induction xs generalizing ys with
  | nil => simp [List.mapM_nil, List.forall₂_nil_left_iff, eq_comm]
  | cons x xs ih =>
      simp only [List.mapM_cons, Option.bind_eq_bind, Option.bind_eq_some_iff, Option.pure_def,
        Option.some.injEq, List.forall₂_cons_left_iff]
      constructor
      · rintro ⟨y, hy, zs, hzs, rfl⟩
        exact ⟨y, zs, hy, ih.mp hzs, rfl⟩
      · rintro ⟨y, zs, hy, hzs, rfl⟩
        exact ⟨y, hy, zs, ih.mpr hzs, rfl⟩

theorem mapM_eq_ok {f : α → Except ε β} {xs : List α} {ys : List β} :
    xs.mapM f = .ok ys ↔ xs.Forall₂ (fun x y => f x = .ok y) ys := by
  induction xs generalizing ys with
  | nil =>
      rw [List.mapM_nil, List.forall₂_nil_left_iff]
      exact ⟨fun h => (Except.ok.inj h).symm, fun h => congrArg Except.ok h.symm⟩
  | cons x xs ih =>
      rw [List.mapM_cons, List.forall₂_cons_left_iff]
      cases hx : f x with
      | error e => exact iff_of_false (by simp [bind, Except.bind]) (by simp)
      | ok y =>
          cases hxs : xs.mapM f with
          | error e =>
              refine iff_of_false (by simp [bind, Except.bind]) ?_
              rintro ⟨_, zs, -, hzs, -⟩
              rw [← ih, hxs] at hzs
              cases hzs
          | ok zs =>
              constructor
              · intro h
                cases h
                exact ⟨y, zs, rfl, ih.mp hxs, rfl⟩
              · rintro ⟨_, ws, hy, hws, rfl⟩
                rw [← ih, hxs] at hws
                cases hy
                cases hws
                rfl

theorem exists_right_of_mem {R : α → β → Prop} {xs : List α} {ys : List β}
    (h : xs.Forall₂ R ys) {x : α} (hx : x ∈ xs) : ∃ y ∈ ys, R x y := by
  induction h with
  | nil => simp at hx
  | cons hxy _ ih =>
      rcases List.mem_cons.mp hx with rfl | hx
      · exact ⟨_, List.mem_cons_self, hxy⟩
      · obtain ⟨y, hy, hR⟩ := ih hx
        exact ⟨y, List.mem_cons_of_mem _ hy, hR⟩

theorem exists_left_of_mem {R : α → β → Prop} {xs : List α} {ys : List β}
    (h : xs.Forall₂ R ys) {y : β} (hy : y ∈ ys) : ∃ x ∈ xs, R x y :=
  exists_right_of_mem h.flip hy

theorem mapM_isSome {f : α → Option β} {xs : List α}
    (h : ∀ x ∈ xs, (f x).isSome = true) : (xs.mapM f).isSome = true := by
  induction xs with
  | nil => rfl
  | cons x xs ih =>
      rw [List.forall_mem_cons] at h
      obtain ⟨y, hy⟩ := Option.isSome_iff_exists.mp h.1
      obtain ⟨ys, hys⟩ := Option.isSome_iff_exists.mp (ih h.2)
      simp [List.mapM_cons, hy, hys]

/-- Without duplicates, an entry of the results comes from one entry of the list. -/
theorem eq_of_mem_of_nodup_flatMap {f : α → List β} {xs : List α} (h : (xs.flatMap f).Nodup)
    {x x' : α} (hx : x ∈ xs) (hx' : x' ∈ xs) {y : β} (hy : y ∈ f x) (hy' : y ∈ f x') : x = x' := by
  induction xs with
  | nil => cases hx
  | cons z xs ih =>
      rw [List.flatMap_cons, List.nodup_append] at h
      obtain ⟨-, hrest, hdisjoint⟩ := h
      rcases List.mem_cons.mp hx with heq | hmem <;>
        rcases List.mem_cons.mp hx' with heq' | hmem'
      · exact heq.trans heq'.symm
      · rw [heq] at hy
        exact absurd rfl (hdisjoint y hy y (List.mem_flatMap.mpr ⟨x', hmem', hy'⟩))
      · rw [heq'] at hy'
        exact absurd rfl (hdisjoint y hy' y (List.mem_flatMap.mpr ⟨x, hmem, hy⟩))
      · exact ih hrest hmem hmem'

end Gjallar.Traversals

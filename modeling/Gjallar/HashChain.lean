import Mathlib.Data.Int.Notation
import Mathlib.Data.List.Forall2
import Mathlib.Data.List.Induction
import Mathlib.Tactic.Push

/-!
# Hash-linked lists

Records that are numbered consecutively, each of which names the checksum of the record before it
and carries a digest of itself as its own. When digests do not collide, the last checksum
determines the whole list.
-/
namespace Gjallar.HashChain

universe u v

/-- How the records of a chain are read. -/
structure Reading (E : Type u) (H : Type v) where
  number : E → ℤ
  previous : E → H
  checksum : E → H
  digest : E → H

variable {E : Type u} {H : Type v} (r : Reading E H)

/-- The records continue a chain that ends in the checksum `p`; the first one has the number `n`. -/
def Linked : H → ℤ → List E → Prop
  | _, _, [] => True
  | p, n, e :: es => r.number e = n ∧ r.previous e = p ∧ r.checksum e = r.digest e ∧
      Linked (r.checksum e) (n + 1) es

/-- The checksum in which a chain ends; `p` is that of the chain before it. -/
def lastChecksum (p : H) (es : List E) : H := (es.getLast?.map r.checksum).getD p

@[simp] theorem lastChecksum_nil (p : H) : lastChecksum r p [] = p := rfl

@[simp] theorem lastChecksum_concat (p : H) (es : List E) (e : E) :
    lastChecksum r p (es ++ [e]) = r.checksum e := by simp [lastChecksum]

theorem lastChecksum_cons (p : H) (e : E) (es : List E) :
    lastChecksum r p (e :: es) = lastChecksum r (r.checksum e) es := by
  cases es using List.reverseRecOn with
  | nil => rfl
  | append_singleton es f => rw [← List.cons_append, lastChecksum_concat, lastChecksum_concat]

/-- A chain of several records is a chain with one more record at its end. -/
theorem linked_concat (p : H) (n : ℤ) (es : List E) (e : E) :
    Linked r p n (es ++ [e]) ↔ Linked r p n es ∧ r.number e = n + es.length ∧
      r.previous e = lastChecksum r p es ∧ r.checksum e = r.digest e := by
  induction es generalizing p n with
  | nil => simp [Linked]
  | cons f es ih =>
      rw [List.cons_append, Linked, Linked, ih, lastChecksum_cons, List.length_cons]
      have hnumber : n + 1 + (es.length : ℤ) = n + ((es.length + 1 : ℕ) : ℤ) := by
        push_cast
        omega
      rw [hnumber]
      tauto

variable {r}

/-- Two chains that end in one checksum agree record by record. The induction runs from the end: the
digests of the last records agree, hence their numbers, and with these the lengths; the
checksums before them agree because each record names the one before it. -/
theorem forall₂_of_lastChecksum {R : E → E → Prop}
    (hfree : ∀ e f, r.digest e = r.digest f → R e f)
    (hnumber : ∀ e f, R e f → r.number e = r.number f)
    (hprevious : ∀ e f, R e f → r.previous e = r.previous f) {p : H} {n : ℤ} {xs ys : List E}
    (hx : Linked r p n xs) (hy : Linked r p n ys) (hxne : xs ≠ []) (hyne : ys ≠ [])
    (hlast : lastChecksum r p xs = lastChecksum r p ys) : List.Forall₂ R xs ys := by
  induction xs using List.reverseRecOn generalizing ys with
  | nil => exact absurd rfl hxne
  | append_singleton xs e ih =>
      obtain ⟨ys, f, rfl⟩ := (List.eq_nil_or_concat' ys).resolve_left hyne
      obtain ⟨hxs, he, hpe, hse⟩ := (linked_concat r p n xs e).mp hx
      obtain ⟨hys, hf, hpf, hsf⟩ := (linked_concat r p n ys f).mp hy
      rw [lastChecksum_concat, lastChecksum_concat, hse, hsf] at hlast
      have hR : R e f := hfree e f hlast
      have hlength : xs.length = ys.length := by
        have heq := hnumber e f hR
        omega
      have hbefore : List.Forall₂ R xs ys := by
        cases xs with
        | nil =>
            rw [List.length_eq_zero_iff.mp hlength.symm]
            exact .nil
        | cons x xs =>
            apply ih hxs hys
            · exact List.cons_ne_nil x xs
            · rintro rfl
              cases hlength
            · rw [← hpe, ← hpf, hprevious e f hR]
      exact List.rel_append hbefore (.cons hR .nil)

end Gjallar.HashChain

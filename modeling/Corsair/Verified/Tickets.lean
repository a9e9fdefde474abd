import Mathlib.Data.List.Nodup
import Mathlib.Order.Lattice

/-!
# A ticket dispenser whose number may be raised

A dispenser shows the next number.  Whoever takes a ticket gets the number shown, and the
dispenser shows a later one; from outside the number may be raised, and a raise to a lower
number does nothing.  The tickets come out in order, whoever takes them and whenever the
number is raised.

## Main results

* `Ordered.take`, `Ordered.raise` — both operations keep the tickets in order.
* `Ordered.nodup` — no ticket is handed out twice.
-/

namespace Corsair.Verified.Tickets

variable {α : Type*} [LinearOrder α]

/-- The number shown, and the tickets taken so far, first to last. -/
structure Dispenser (α : Type*) where
  next : α
  taken : List α

namespace Dispenser

/-- A ticket is taken; the dispenser shows `shown` from then on. -/
def take (d : Dispenser α) (shown : α) : Dispenser α :=
  { next := shown, taken := d.taken ++ [d.next] }

/-- The number is raised to `x`, or stays. -/
def raise (d : Dispenser α) (x : α) : Dispenser α :=
  { d with next := max d.next x }

end Dispenser

/-- The tickets are in order, and the number shown is later than all of them. -/
structure Ordered (d : Dispenser α) : Prop where
  sorted : d.taken.Pairwise (· < ·)
  below : ∀ x ∈ d.taken, x < d.next

namespace Ordered

variable {d : Dispenser α}

theorem first (next : α) : Ordered ⟨next, []⟩ where
  sorted := List.Pairwise.nil
  below := by simp

theorem take (h : Ordered d) {shown : α} (hlater : d.next < shown) :
    Ordered (d.take shown) where
  sorted := by
    refine List.pairwise_append.mpr ⟨h.sorted, List.pairwise_singleton _ _, ?_⟩
    intro x hx y hy
    rw [List.mem_singleton.mp hy]
    exact h.below x hx
  below := by
    intro x hx
    show x < shown
    rcases List.mem_append.mp hx with hold | hnew
    · exact (h.below x hold).trans hlater
    · rw [List.mem_singleton.mp hnew]
      exact hlater

theorem raise (h : Ordered d) (x : α) : Ordered (d.raise x) where
  sorted := h.sorted
  below := fun y hy => (h.below y hy).trans_le (le_max_left _ _)

/-- No ticket is handed out twice. -/
theorem nodup (h : Ordered d) : d.taken.Nodup :=
  h.sorted.imp ne_of_lt

end Ordered

end Corsair.Verified.Tickets

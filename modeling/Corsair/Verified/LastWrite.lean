import Mathlib.Data.List.Induction
import Mathlib.Data.List.Perm.Basic

/-!
# A place that keeps the last write

A fold walks a list of items, and an item may write one place.  What the place holds
afterwards is what the last item that wrote it left, and what it held before if none did.

## Main results

* `lastWrite_eq_or` — a place holds a write of an item, or what it held before.
* `forall_perm_lastWrite_iff` — the place holds one value in every order of the items
  exactly if each write leaves that value, and a place that no item writes holds it from
  the start.
-/

namespace Corsair.Verified.LastWrite

variable {α β : Type*} {write : α → Option β} {b c v : β} {x : α} {items : List α}

/-- What the items leave in a place that holds `b` before them. -/
def lastWrite (write : α → Option β) (b : β) (items : List α) : β :=
  items.foldl (fun held x => (write x).getD held) b

@[simp] theorem lastWrite_nil : lastWrite write b [] = b := rfl

@[simp] theorem lastWrite_cons :
    lastWrite write b (x :: items) = lastWrite write ((write x).getD b) items := rfl

@[simp] theorem lastWrite_concat :
    lastWrite write b (items ++ [x]) = (write x).getD (lastWrite write b items) := by
  simp [lastWrite]

/-- A place that no item writes holds what it held. -/
theorem lastWrite_of_none (h : ∀ x ∈ items, write x = none) : lastWrite write b items = b := by
  induction items with
  | nil => rfl
  | cons x rest ih =>
      rw [lastWrite_cons, h x List.mem_cons_self]
      exact ih fun y hy => h y (List.mem_cons_of_mem x hy)

/-- The items that a filter drops might as well write nothing. -/
theorem lastWrite_filter (p : α → Bool) :
    lastWrite write b (items.filter p) =
      lastWrite (fun x => if p x then write x else none) b items := by
  unfold lastWrite
  rw [List.foldl_filter]
  refine List.foldl_ext _ _ _ fun held x _ => ?_
  dsimp only
  split
  · rfl
  · rfl

/-- A place holds a write of an item, or what it held before. -/
theorem lastWrite_eq_or (write : α → Option β) (b : β) (items : List α) :
    (∃ x ∈ items, write x = some (lastWrite write b items)) ∨
      (∀ x ∈ items, write x = none) ∧ lastWrite write b items = b := by
  induction items using List.reverseRecOn with
  | nil => exact .inr ⟨by simp, rfl⟩
  | append_singleton items x ih =>
      rw [lastWrite_concat]
      cases hx : write x with
      | some v => exact .inl ⟨x, by simp, hx⟩
      | none =>
          rw [Option.getD_none]
          rcases ih with ⟨y, hy, hwrite⟩ | ⟨hnone, hheld⟩
          · exact .inl ⟨y, List.mem_append_left _ hy, hwrite⟩
          · refine .inr ⟨fun y hy => ?_, hheld⟩
            rcases List.mem_append.mp hy with hold | hnew
            · exact hnone y hold
            · rw [List.mem_singleton.mp hnew, hx]

/-- Some order of the items has a given write last. -/
theorem exists_perm_lastWrite (hx : x ∈ items) (hwrite : write x = some v) :
    ∃ items', items'.Perm items ∧ lastWrite write b items' = v := by
  obtain ⟨front, back, rfl⟩ := List.append_of_mem hx
  refine ⟨front ++ back ++ [x], ?_, ?_⟩
  · rw [List.append_assoc]
    exact (List.perm_append_singleton x back).append_left front
  · rw [lastWrite_concat, hwrite, Option.getD_some]

/-- **Every order.** The place holds `c` in every order of the items just if each write
leaves `c`, and a place that no item writes holds it from the start. -/
theorem forall_perm_lastWrite_iff :
    (∀ items', items'.Perm items → lastWrite write b items' = c) ↔
      (∀ x ∈ items, ∀ v, write x = some v → v = c) ∧
        ((∀ x ∈ items, write x = none) → b = c) := by
  constructor
  · intro h
    refine ⟨fun x hx v hwrite => ?_, fun hnone => ?_⟩
    · obtain ⟨items', hperm, hlast⟩ := exists_perm_lastWrite (b := b) hx hwrite
      rw [← hlast]
      exact h items' hperm
    · exact (lastWrite_of_none hnone).symm.trans (h items (.refl items))
  · rintro ⟨hwrites, hheld⟩ items' hperm
    rcases lastWrite_eq_or write b items' with
      ⟨x, hx, hwrite⟩ | ⟨hnone, hlast⟩
    · exact hwrites x (hperm.mem_iff.mp hx) _ hwrite
    · rw [hlast]
      exact hheld fun x hx => hnone x (hperm.mem_iff.mpr hx)

end Corsair.Verified.LastWrite

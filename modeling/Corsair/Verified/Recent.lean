import Mathlib.Data.List.Dedup
import Mathlib.Data.List.Infix
import Mathlib.Data.List.Nodup
import Mathlib.Data.List.Perm.Subperm

/-!
# The most recent items of a log

A program that refuses repeats keeps the last items that it took, up to a bound: an item that
is kept is refused, another is taken, and where the store is full the oldest makes room.  The
log of all that was taken is not kept.

An item leaves the store only when it is the oldest of a full one.  So it is still there as long
as fewer different items than the bound were taken after it.

## Main results

* `remembers_push` — the store is the end of the log, and all of it or full.
* `mem_of_few_later` — what the log has near its end is in the store.
-/

namespace Corsair.Verified.Recent

variable {α : Type*}

/-- The store after one more item. -/
def push (cap : Nat) (kept : List α) (x : α) : List α :=
  (if cap ≤ kept.length then kept.drop 1 else kept) ++ [x]

/-- The store is the end of the log: all of it, or as much as fits. -/
structure Remembers (cap : Nat) (log kept : List α) : Prop where
  nodup : kept.Nodup
  suffix : kept <:+ log
  bounded : kept.length ≤ cap
  full : kept = log ∨ kept.length = cap

theorem remembers_nil (cap : Nat) : Remembers cap ([] : List α) [] where
  nodup := .nil
  suffix := List.suffix_rfl
  bounded := Nat.zero_le cap
  full := .inl rfl

/-- **A new item** is taken. -/
theorem remembers_push {cap : Nat} {log kept : List α} (h : Remembers cap log kept)
    (hcap : 0 < cap) {x : α} (hnew : x ∉ kept) :
    Remembers cap (log ++ [x]) (push cap kept x) := by
  unfold push
  split
  · rename_i hfull
    have hlen : kept.length = cap := le_antisymm h.bounded hfull
    have hdrop : (kept.drop 1 ++ [x]).length = cap := by
      rw [List.length_append, List.length_drop, List.length_singleton]
      omega
    have hmem : x ∉ kept.drop 1 := fun hx => hnew (List.mem_of_mem_drop hx)
    exact {
      nodup := List.nodup_append_comm.mp (List.nodup_cons.mpr
        ⟨hmem, h.nodup.sublist (List.drop_sublist 1 kept)⟩)
      suffix := List.suffix_concat_iff.mpr
        (.inr ⟨_, rfl, (List.drop_suffix 1 kept).trans h.suffix⟩)
      bounded := hdrop.le
      full := .inr hdrop }
  · rename_i hroom
    have hwhole : kept = log := h.full.resolve_right (by omega)
    rw [hwhole] at hnew h hroom ⊢
    exact {
      nodup := List.nodup_append_comm.mp (List.nodup_cons.mpr ⟨hnew, h.nodup⟩)
      suffix := List.suffix_rfl
      bounded := by
        rw [List.length_append, List.length_singleton]
        omega
      full := .inl rfl }

/-- **What was taken lately is kept**: fewer different items than the bound came after it. -/
theorem mem_of_few_later [DecidableEq α] {cap : Nat} {front back kept : List α} {x : α}
    (h : Remembers cap (front ++ x :: back) kept) (hfew : back.dedup.length < cap) : x ∈ kept := by
  have hback : back <:+ front ++ x :: back :=
    (List.suffix_cons x back).trans (List.suffix_append front _)
  rcases h.full with hall | hfull
  · rw [hall]
    exact List.mem_append_right _ List.mem_cons_self
  · by_contra hgone
    -- the store would lie behind the item, and its items are all different
    have hlater : kept <:+ back := by
      rcases le_total kept.length back.length with hle | hle
      · exact List.suffix_of_suffix_length_le h.suffix hback hle
      · rcases hle.eq_or_lt with heq | hlt
        · exact List.suffix_of_suffix_length_le h.suffix hback heq.ge
        · have hitem : x :: back <:+ kept :=
            List.suffix_of_suffix_length_le (List.suffix_append front _) h.suffix hlt
          exact absurd (hitem.subset List.mem_cons_self) hgone
    have hsub : kept ⊆ back.dedup := fun y hy => List.mem_dedup.mpr (hlater.subset hy)
    have hlen := (List.subperm_of_subset h.nodup hsub).length_le
    omega

end Corsair.Verified.Recent

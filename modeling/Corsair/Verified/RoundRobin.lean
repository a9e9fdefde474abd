import Mathlib.Data.Nat.ModEq
import Mathlib.Logic.Function.Iterate

/-!
# Taking turns around a list

A scheduler with fewer slots than items takes the items in turn: as many as it has slots,
from a cursor on and around the end of the list, and the next turn goes on where this one
stopped.  The list may have another length at the next turn, so a cursor is whatever number an
earlier turn left.

The selection is partial in the way an indexed access is: an index past the end is `none`.

## Main results

* `picks_eq` — no index is past the end, whatever the cursor.
* `reached` — over a list that keeps its length, enough turns come to every place.
-/

namespace Corsair.Verified.RoundRobin

variable {α : Type*}

/-- How many items a turn takes. -/
def width (slots n : Nat) : Nat := min slots n

/-- The items of a turn. -/
def picks (pool : List α) (slots cursor : Nat) : Option (List α) :=
  (List.range (width slots pool.length)).mapM fun i =>
    pool[(cursor % pool.length + i) % pool.length]?

/-- Where the next turn starts. -/
def advance (slots n cursor : Nat) : Nat := (cursor + width slots n) % n

/-! ## One turn -/

private theorem mapM_eq_some {β : Type*} {f : α → Option β} {l : List α}
    (h : ∀ x ∈ l, ∃ y, f x = some y) : ∃ ys, l.mapM f = some ys ∧ l.map f = ys.map some := by
  induction l with
  | nil => exact ⟨[], rfl, rfl⟩
  | cons x rest ih =>
      rw [List.forall_mem_cons] at h
      obtain ⟨y, hy⟩ := h.1
      obtain ⟨ys, hmapM, hmap⟩ := ih h.2
      refine ⟨y :: ys, ?_, ?_⟩
      · rw [List.mapM_cons, hy, hmapM]
        rfl
      · rw [List.map_cons, hy, hmap, List.map_cons]

/-- **A turn** takes as many items as it has slots for, from the cursor on. -/
theorem picks_eq (pool : List α) (slots cursor : Nat) :
    ∃ chosen, picks pool slots cursor = some chosen ∧ chosen.length = width slots pool.length ∧
      ∀ x, x ∈ chosen ↔
        ∃ i < width slots pool.length, pool[(cursor + i) % pool.length]? = some x := by
  have hinside : ∀ i ∈ List.range (width slots pool.length),
      ∃ x, pool[(cursor % pool.length + i) % pool.length]? = some x := by
    intro i hi
    have hlt : i < min slots pool.length := List.mem_range.mp hi
    have hbound : (cursor % pool.length + i) % pool.length < pool.length :=
      Nat.mod_lt _ (by omega)
    exact ⟨_, List.getElem?_eq_getElem hbound⟩
  obtain ⟨chosen, hpicks, hmap⟩ := mapM_eq_some hinside
  refine ⟨chosen, hpicks, ?_, fun x => ?_⟩
  · have hlen := congrArg List.length hmap
    rw [List.length_map, List.length_map, List.length_range] at hlen
    exact hlen.symm
  · have hmem : x ∈ chosen ↔ some x ∈ chosen.map some := by simp
    rw [hmem, ← hmap, List.mem_map]
    simp only [List.mem_range, Nat.mod_add_mod]

theorem advance_lt {slots n : Nat} (hn : 0 < n) (cursor : Nat) : advance slots n cursor < n :=
  Nat.mod_lt _ hn

/-! ## Turn after turn -/

/-- Where a cursor stands after some turns over a list of one length. -/
theorem iterate_advance_mod (slots n cursor turns : Nat) :
    (advance slots n)^[turns] cursor % n = (cursor + turns * width slots n) % n := by
  induction turns with
  | zero => simp
  | succ turns ih =>
      rw [Function.iterate_succ_apply', advance, Nat.mod_mod, Nat.add_mod, ih, ← Nat.add_mod,
        Nat.add_assoc, ← Nat.succ_mul]

/-- **Coverage.** Where the turns have slots for the whole list, each of its places is come to
in one of them, wherever the first starts. -/
theorem reached {slots n turns : Nat} (henough : n ≤ slots * turns) (cursor : Nat) {j : Nat}
    (hj : j < n) :
    ∃ t < turns, ∃ i < width slots n, ((advance slots n)^[t] cursor + i) % n = j := by
  -- How far the place is from where the first turn starts, around the end.
  obtain ⟨d, hd, hreach⟩ : ∃ d < n, (cursor + d) % n = j := by
    have hstart : cursor % n < n := Nat.mod_lt _ (by omega)
    refine ⟨(j + n - cursor % n) % n, Nat.mod_lt _ (by omega), ?_⟩
    rw [Nat.add_mod_mod, ← Nat.mod_add_mod,
      show cursor % n + (j + n - cursor % n) = j + n by omega, Nat.add_mod_right,
      Nat.mod_eq_of_lt hj]
  have hslots : 0 < slots := Nat.pos_of_ne_zero fun hzero => by simp [hzero] at henough; omega
  have hturns : 0 < turns := Nat.pos_of_ne_zero fun hzero => by simp [hzero] at henough; omega
  have hpos : 0 < width slots n := lt_min hslots (by omega)
  have hwidth : n ≤ turns * width slots n := by
    unfold width
    rcases le_total slots n with hle | hle
    · rw [min_eq_left hle, Nat.mul_comm]
      exact henough
    · rw [min_eq_right hle]
      exact Nat.le_mul_of_pos_left _ hturns
  refine ⟨d / width slots n, Nat.div_lt_of_lt_mul (by rw [Nat.mul_comm]; exact hd.trans_le hwidth),
    d % width slots n, Nat.mod_lt _ hpos, ?_⟩
  rw [← Nat.mod_add_mod, iterate_advance_mod, Nat.mod_add_mod, Nat.add_assoc,
    Nat.mul_comm, Nat.div_add_mod, hreach]

end Corsair.Verified.RoundRobin

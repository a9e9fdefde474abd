import Mathlib.Algebra.BigOperators.Group.List.Basic
import Mathlib.Algebra.Field.Basic
import Mathlib.Algebra.CharZero.Defs
import Mathlib.Data.Int.Cast.Lemmas
import Mathlib.Data.List.Induction
import Mathlib.Tactic.LinearCombination
import Mathlib.Tactic.Linarith
import Mathlib.Tactic.Ring

/-!
# Average-cost accounting

A holding of one instrument is a signed quantity and the average price that it was
built at.  A fill on the side of the holding moves the average; a fill against it
closes a part, all, or all and more, and realizes the difference between its price
and the average on the part that it closes.

What is realized and what the holding has gained at a mark are together what the
fills have gained at that mark, whatever the mark and the order of the fills.

## Main results

* `Holding.gain_fill` — conservation, one fill.
* `Holding.gain_run` — conservation, any list of fills.
-/

namespace Corsair.Verified.AverageCost

variable {K : Type*} [Field K]

/-- A holding; a flat one has no average. -/
structure Holding (K : Type*) [Field K] where
  qty : ℤ
  avg : K
  flat : qty = 0 → avg = 0

/-- The part of a holding that a fill of `q` closes. -/
def closed (qty q : ℤ) : ℤ :=
  if 0 ≤ qty * q then 0 else if q.natAbs < qty.natAbs then -q else qty

/-- A fill that leaves the holding flat has closed all of it. -/
theorem closed_of_flat {qty q : ℤ} (hflat : qty + q = 0) : closed qty q = qty := by
  obtain rfl : q = -qty := by omega
  unfold closed
  split
  · rename_i hsame
    have hzero : qty * qty = 0 := by linarith [mul_self_nonneg qty, mul_neg qty qty]
    exact (mul_self_eq_zero.mp hzero).symm
  · simp

namespace Holding

/-- Nothing held. -/
def empty : Holding K := ⟨0, 0, fun _ => rfl⟩

/-- The average after a fill of `q` at `p` that does not leave the holding flat. -/
def avgAfter (h : Holding K) (q : ℤ) (p : K) : K :=
  if 0 ≤ h.qty * q then (h.avg * h.qty + p * q) / (h.qty + q : ℤ)
  else if q.natAbs < h.qty.natAbs then h.avg
  else p

/-- The holding after a fill of `q` at `p`. -/
def fill (h : Holding K) (q : ℤ) (p : K) : Holding K where
  qty := h.qty + q
  avg := if h.qty + q = 0 then 0 else h.avgAfter q p
  flat hflat := if_pos hflat

/-- What the fill realizes. -/
def realized (h : Holding K) (q : ℤ) (p : K) : K := closed h.qty q * (p - h.avg)

/-- What the holding has gained at a mark. -/
def gain (h : Holding K) (mark : K) : K := h.qty * (mark - h.avg)

@[simp] theorem gain_empty (mark : K) : (empty : Holding K).gain mark = 0 := by
  simp [gain, empty]

@[simp] theorem qty_fill (h : Holding K) (q : ℤ) (p : K) : (h.fill q p).qty = h.qty + q := rfl

theorem avg_fill (h : Holding K) {q : ℤ} (hopen : h.qty + q ≠ 0) (p : K) :
    (h.fill q p).avg = h.avgAfter q p := if_neg hopen

/-- **Conservation.** At any mark, a fill adds to what is realized and gained what
it gains itself. -/
theorem gain_fill [CharZero K] (h : Holding K) (q : ℤ) (p mark : K) :
    (h.fill q p).gain mark + h.realized q p = h.gain mark + q * (mark - p) := by
  by_cases hflat : h.qty + q = 0
  · have hq : (q : K) = -h.qty := by
      rw [← Int.cast_neg]
      congr 1
      omega
    simp only [gain, fill, realized, closed_of_flat hflat, hflat, hq, Int.cast_zero]
    ring
  · have hne : ((h.qty + q : ℤ) : K) ≠ 0 := Int.cast_ne_zero.mpr hflat
    simp only [gain, fill, realized, if_neg hflat, avgAfter, closed]
    split
    · rw [mul_sub, mul_div_cancel₀ _ hne]
      push_cast
      ring
    · split
      · push_cast
        ring
      · push_cast
        ring

/-! ## Lists of fills -/

/-- The holding after a list of fills, and what they have realized. -/
def run (fills : List (ℤ × K)) : Holding K × K :=
  fills.foldl (fun s f => (s.1.fill f.1 f.2, s.2 + s.1.realized f.1 f.2)) (empty, 0)

/-- What a list of fills has gained at a mark. -/
def gained (fills : List (ℤ × K)) (mark : K) : K :=
  (fills.map fun f => f.1 * (mark - f.2)).sum

theorem run_concat (fills : List (ℤ × K)) (f : ℤ × K) :
    run (fills ++ [f]) =
      ((run fills).1.fill f.1 f.2, (run fills).2 + (run fills).1.realized f.1 f.2) := by
  rw [run, List.foldl_append]
  rfl

theorem qty_run (fills : List (ℤ × K)) : (run fills).1.qty = (fills.map (·.1)).sum := by
  induction fills using List.reverseRecOn with
  | nil => rfl
  | append_singleton fills f ih => simp [run_concat, ih]

/-- **Conservation**, for a list of fills. -/
theorem gain_run [CharZero K] (fills : List (ℤ × K)) (mark : K) :
    (run fills).1.gain mark + (run fills).2 = gained fills mark := by
  induction fills using List.reverseRecOn with
  | nil => simp [run, gained]
  | append_singleton fills f ih =>
      have hfill := gain_fill (run fills).1 f.1 f.2 mark
      have hsum : gained (fills ++ [f]) mark = gained fills mark + f.1 * (mark - f.2) := by
        simp [gained]
      rw [run_concat, hsum, ← ih]
      linear_combination hfill

end Holding

end Corsair.Verified.AverageCost

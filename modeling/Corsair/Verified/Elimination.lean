import Mathlib.Algebra.BigOperators.Group.Finset.Basic
import Mathlib.Algebra.BigOperators.Ring.Finset
import Mathlib.Algebra.Order.AbsoluteValue.Basic
import Mathlib.Algebra.Order.Field.Basic
import Mathlib.Data.Fintype.BigOperators
import Mathlib.Logic.Equiv.Basic
import Mathlib.Tactic.FieldSimp
import Mathlib.Tactic.LinearCombination
import Mathlib.Tactic.Ring

/-!
# Gaussian elimination

A square system is reduced column by column: rows are swapped, which brings a pivot to the
diagonal, and multiples of the pivot row are taken from the rows below it.  Neither changes
the solutions, whatever the pivots are, as long as they are not zero.  A reduced system is
solved from its last row up.

With partial pivoting the pivot is the largest entry that is left of its column, and a column
whose largest entry is below a tolerance has none.

## Main results

* `solves_swap`, `solves_clearColumn` — a round keeps the solutions.
* `Reduced.swap`, `Reduced.clear` — what they do to the columns that are done.
* `Eliminates.unique`, `Eliminates.pivot` — elimination with partial pivoting takes one way, and
  a column that it has passed had a pivot.
* `Reduced.solves_iff` — a system that is reduced throughout has the one solution that is found
  from its last row up.
-/

namespace Corsair.Verified.Elimination

variable {K : Type*} {n : Nat}

/-- A square matrix and a right-hand side. -/
@[ext] structure LinSystem (K : Type*) (n : Nat) where
  a : Fin n → Fin n → K
  b : Fin n → K

namespace LinSystem

/-- Two rows change places. -/
def swap (s : LinSystem K n) (p q : Fin n) : LinSystem K n where
  a := s.a ∘ Equiv.swap p q
  b := s.b ∘ Equiv.swap p q

@[simp] theorem swap_self (s : LinSystem K n) (p : Fin n) : s.swap p p = s := by
  rw [swap, Equiv.swap_self]
  rfl

variable [Field K]

/-- A multiple of row `k` is taken from row `i`. -/
def subRow (s : LinSystem K n) (i k : Fin n) (c : K) : LinSystem K n where
  a := Function.update s.a i fun j => s.a i j - c * s.a k j
  b := Function.update s.b i (s.b i - c * s.b k)

end LinSystem

section Solutions

variable [Field K] {s : LinSystem K n} {x : Fin n → K}

/-- The point meets every row. -/
def Solves (s : LinSystem K n) (x : Fin n → K) : Prop := ∀ i, ∑ j, s.a i j * x j = s.b i

/-- Rows may be swapped. -/
theorem solves_swap (p q : Fin n) : Solves (s.swap p q) x ↔ Solves s x :=
  (Equiv.swap p q).forall_congr_right (q := fun i => ∑ j, s.a i j * x j = s.b i)

/-! ## Columns that are done -/

/-- The first `k` columns are done: nothing is left below their pivots, which are not zero. -/
structure Reduced (s : LinSystem K n) (k : Nat) : Prop where
  cleared : ∀ i j : Fin n, j.val < k → j < i → s.a i j = 0
  pivots : ∀ i : Fin n, i.val < k → s.a i i ≠ 0

theorem Reduced.start (s : LinSystem K n) : Reduced s 0 where
  cleared _ _ h := absurd h (Nat.not_lt_zero _)
  pivots _ h := absurd h (Nat.not_lt_zero _)

/-- Rows from `k` on may be swapped. -/
theorem Reduced.swap {k : Nat} (h : Reduced s k) {p q : Fin n} (hp : k ≤ p.val) (hq : k ≤ q.val) :
    Reduced (s.swap p q) k where
  cleared i j hj hji := by
    show s.a (Equiv.swap p q i) j = 0
    refine h.cleared _ j hj ?_
    by_cases hip : i = p
    · rw [hip, Equiv.swap_apply_left]
      exact Fin.lt_def.mpr (hj.trans_le hq)
    · by_cases hiq : i = q
      · rw [hiq, Equiv.swap_apply_right]
        exact Fin.lt_def.mpr (hj.trans_le hp)
      · rw [Equiv.swap_apply_of_ne_of_ne hip hiq]
        exact hji
  pivots i hi := by
    show s.a (Equiv.swap p q i) i ≠ 0
    have hip : i ≠ p := fun e => absurd hp (not_le.mpr (e ▸ hi))
    have hiq : i ≠ q := fun e => absurd hq (not_le.mpr (e ▸ hi))
    rw [Equiv.swap_apply_of_ne_of_ne hip hiq]
    exact h.pivots i hi

/-- What is left of row `i` when column `k` has been cleared below its pivot. -/
def clearedRow (s : LinSystem K n) (k i : Fin n) (j : Fin n) : K :=
  if k < i then s.a i j - s.a i k / s.a k k * s.a k j else s.a i j

/-- **Clearing a column** finishes it. -/
theorem Reduced.clear {k : Fin n} (h : Reduced s k.val) (hpivot : s.a k k ≠ 0)
    {s' : LinSystem K n} (hrows : s'.a = clearedRow s k) : Reduced s' (k.val + 1) where
  cleared i j hj hji := by
    rw [hrows, clearedRow]
    rcases Nat.lt_succ_iff_lt_or_eq.mp hj with hlt | heq
    · rw [h.cleared i j hlt hji]
      split_ifs with hki
      · rw [h.cleared k j hlt (Fin.lt_def.mpr hlt), mul_zero, sub_zero]
      · rfl
    · have hjk : j = k := Fin.ext heq
      subst hjk
      rw [if_pos hji, div_mul_cancel₀ _ hpivot, sub_self]
  pivots i hi := by
    have hki : ¬ k < i := fun hlt => absurd (Fin.lt_def.mp hlt) (not_lt.mpr (Nat.le_of_lt_succ hi))
    rw [hrows, clearedRow, if_neg hki]
    rcases Nat.lt_succ_iff_lt_or_eq.mp hi with hlt | heq
    · exact h.pivots i hlt
    · have hik : i = k := Fin.ext heq
      rw [hik]
      exact hpivot

/-- A system with column `k` cleared below its pivot. -/
def clearColumn (s : LinSystem K n) (k : Fin n) : LinSystem K n where
  a := clearedRow s k
  b i := if k < i then s.b i - s.a i k / s.a k k * s.b k else s.b i

/-- Clearing a column keeps the solutions. -/
theorem solves_clearColumn (k : Fin n) : Solves (clearColumn s k) x ↔ Solves s x := by
  have hrow (i : Fin n) : ∑ j, clearedRow s k i j * x j =
      if k < i then ∑ j, s.a i j * x j - s.a i k / s.a k k * ∑ j, s.a k j * x j
      else ∑ j, s.a i j * x j := by
    unfold clearedRow
    split_ifs
    · rw [Finset.mul_sum, ← Finset.sum_sub_distrib]
      exact Finset.sum_congr rfl fun j _ => by ring
    · rfl
  have hk : (clearColumn s k).b k = s.b k := if_neg (lt_irrefl k)
  constructor
  · intro h i
    have hpivot : ∑ j, s.a k j * x j = s.b k := by
      have hself := h k
      rwa [hk, show (clearColumn s k).a = clearedRow s k from rfl, hrow, if_neg (lt_irrefl k)]
        at hself
    have hi := h i
    rw [show (clearColumn s k).a = clearedRow s k from rfl, hrow] at hi
    simp only [clearColumn] at hi
    split_ifs at hi
    · linear_combination hi + s.a i k / s.a k k * hpivot
    · exact hi
  · intro h i
    rw [show (clearColumn s k).a = clearedRow s k from rfl, hrow, h i, h k]
    rfl

/-! ## From the last row up -/

/-- The part of a row behind its pivot. -/
def tail (s : LinSystem K n) (i : Fin n) (x : Fin n → K) : K :=
  ∑ j ∈ Finset.univ.filter (i < ·), s.a i j * x j

theorem sum_row (h : Reduced s n) (i : Fin n) (x : Fin n → K) :
    ∑ j, s.a i j * x j = s.a i i * x i + tail s i x := by
  have hsplit := Finset.sum_filter_add_sum_filter_not Finset.univ (i < ·) fun j => s.a i j * x j
  have hfront : ∑ j ∈ Finset.univ.filter (¬ i < ·), s.a i j * x j = s.a i i * x i := by
    refine Finset.sum_eq_single_of_mem i (by simp) fun j hj hji => ?_
    have hle : j ≤ i := not_lt.mp (Finset.mem_filter.mp hj).2
    rw [h.cleared i j j.isLt (lt_of_le_of_ne hle hji), zero_mul]
  rw [← hsplit, hfront, tail, add_comm]

/-- **A system that is reduced throughout** is solved by the points whose entries follow from
the later ones, row by row. -/
theorem Reduced.solves_iff (h : Reduced s n) (x : Fin n → K) :
    Solves s x ↔ ∀ i, x i = (s.b i - tail s i x) / s.a i i := by
  refine forall_congr' fun i => ?_
  have hpivot := h.pivots i i.isLt
  rw [sum_row h, eq_div_iff hpivot, eq_sub_iff_add_eq, mul_comm]

theorem tail_congr {i : Fin n} {x y : Fin n → K} (h : ∀ j, i < j → x j = y j) :
    tail s i x = tail s i y :=
  Finset.sum_congr rfl fun j hj => by rw [h j (Finset.mem_filter.mp hj).2]

/-- There is one such point at most. -/
theorem Reduced.unique (h : Reduced s n) {x y : Fin n → K} (hx : Solves s x) (hy : Solves s y) :
    x = y := by
  rw [h.solves_iff] at hx hy
  funext i
  -- the later entries agree already
  induction i using WellFoundedGT.induction with
  | ind i ih => rw [hx i, hy i, tail_congr ih]

end Solutions

/-! ## Partial pivoting -/

section Pivoting

variable [Field K] [LinearOrder K] [IsStrictOrderedRing K] {s s' : LinSystem K n} {tol : K}

/-- Row `p` has the first of the largest entries of column `k`, from row `k` on. -/
structure Pivot (s : LinSystem K n) (k p : Fin n) : Prop where
  after : k ≤ p
  largest : ∀ i, k ≤ i → |s.a i k| ≤ |s.a p k|
  first : ∀ i, k ≤ i → i < p → |s.a i k| < |s.a p k|

omit [IsStrictOrderedRing K] in
theorem Pivot.unique {k p q : Fin n} (hp : Pivot s k p) (hq : Pivot s k q) : p = q := by
  refine le_antisymm (not_lt.mp fun hlt => ?_) (not_lt.mp fun hlt => ?_)
  · exact absurd (hp.first q hq.after hlt) (not_lt.mpr (hq.largest p hp.after))
  · exact absurd (hq.first p hp.after hlt) (not_lt.mpr (hp.largest q hq.after))

/-- What elimination with partial pivoting makes of a system: the columns before the given one
have had pivots that are not below the tolerance, and are cleared. -/
inductive Eliminates (tol : K) (s : LinSystem K n) : Nat → LinSystem K n → Prop
  | start : Eliminates tol s 0 s
  | column {s' : LinSystem K n} {k p : Fin n} (h : Eliminates tol s k.val s') (hp : Pivot s' k p)
      (hlarge : tol ≤ |s'.a p k|) : Eliminates tol s (k.val + 1) (clearColumn (s'.swap p k) k)

theorem Eliminates.reduced {k : Nat} (h : Eliminates tol s k s') (htol : 0 < tol) :
    Reduced s' k := by
  induction h with
  | start => exact Reduced.start s
  | @column s' k p h hp hlarge ih =>
      refine (ih.swap hp.after (le_refl _)).clear ?_ rfl
      show s'.a (Equiv.swap p k k) k ≠ 0
      rw [Equiv.swap_apply_right]
      exact abs_pos.mp (htol.trans_le hlarge)

omit [IsStrictOrderedRing K] in
theorem Eliminates.solves_iff {k : Nat} (h : Eliminates tol s k s') (x : Fin n → K) :
    Solves s' x ↔ Solves s x := by
  induction h with
  | start => rfl
  | column h hp hlarge ih => exact (solves_clearColumn _).trans ((solves_swap _ _).trans ih)

omit [IsStrictOrderedRing K] in
/-- **One way.** -/
theorem Eliminates.unique {k : Nat} {s₁ s₂ : LinSystem K n} (h₁ : Eliminates tol s k s₁)
    (h₂ : Eliminates tol s k s₂) : s₁ = s₂ := by
  induction h₁ generalizing s₂ with
  | start =>
      cases h₂ with
      | start => rfl
  | @column s₁ k p h₁ hp hlarge ih =>
      generalize hk : k.val + 1 = m at h₂
      cases h₂ with
      | start => cases hk
      | @column s₂ l q h₂ hq hlarge' =>
          obtain rfl : k = l := Fin.ext (Nat.succ.inj hk)
          obtain rfl := ih h₂
          rw [hp.unique hq]

omit [IsStrictOrderedRing K] in
/-- **A column that is passed had a pivot.** -/
theorem Eliminates.pivot {m : Nat} (h : Eliminates tol s m s') {k : Fin n} (hk : k.val < m)
    {s₀ : LinSystem K n} (h₀ : Eliminates tol s k.val s₀) : ∃ i, k ≤ i ∧ tol ≤ |s₀.a i k| := by
  induction h with
  | start => cases hk
  | @column s' l p h hp hlarge ih =>
      rcases Nat.lt_succ_iff_lt_or_eq.mp hk with hlt | heq
      · exact ih hlt
      · obtain rfl : k = l := Fin.ext heq
        obtain rfl := h₀.unique h
        exact ⟨p, hp.after, hlarge⟩

end Pivoting

end Corsair.Verified.Elimination

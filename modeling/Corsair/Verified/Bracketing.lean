import Mathlib.Order.Interval.Set.UnorderedInterval
import Mathlib.Topology.Order.IntermediateValue
import Mathlib.Topology.Instances.Real.Lemmas
import Mathlib.Algebra.Order.Field.Basic
import Mathlib.Tactic.Linarith

/-!
# Bracketing a change of sign

A bracketing method keeps two points between which a function changes its sign.  It picks a
point between them, in any way it likes, and puts it in the place of the one whose sign it
has.  Of the two points it keeps, the one with the smaller value is the better one.

A `Bracket` carries what is known of its points, so that a method that only moves brackets
cannot lose the root.

## Main results

* `Bracket.move` — a bracket after a point between its ends.
* `Bracket.exists_root` — a continuous function has a root in every bracket.
-/

namespace Corsair.Verified.Bracketing

open Set

section Field

variable {K : Type*} [Field K] [LinearOrder K] [IsStrictOrderedRing K]

/-- Two points of an interval between which `g` changes its sign, or the better of which is a
root. -/
structure Bracket (g : K → K) (lo hi : K) where
  far : K
  best : K
  far_mem : far ∈ Icc lo hi
  best_mem : best ∈ Icc lo hi
  better : |g best| ≤ |g far|
  sign : g far * g best < 0 ∨ g best = 0

namespace Bracket

variable {g : K → K} {lo hi : K}

/-- The bracket of two points, the better one last. -/
def orient (a b : K) (ha : a ∈ Icc lo hi) (hb : b ∈ Icc lo hi)
    (hsign : g a * g b < 0 ∨ g a = 0 ∨ g b = 0) : Bracket g lo hi :=
  if h : |g a| < |g b| then
    { far := b
      best := a
      far_mem := hb
      best_mem := ha
      better := h.le
      sign := by
        rcases hsign with hneg | hzero | hzero
        · exact .inl (by rwa [mul_comm])
        · exact .inr hzero
        · rw [hzero, abs_zero] at h
          exact absurd h (not_lt.mpr (abs_nonneg _)) }
  else
    { far := a
      best := b
      far_mem := ha
      best_mem := hb
      better := not_lt.mp h
      sign := by
        rcases hsign with hneg | hzero | hzero
        · exact .inl hneg
        · rw [hzero, abs_zero, not_lt] at h
          exact .inr (abs_eq_zero.mp (le_antisymm h (abs_nonneg _)))
        · exact .inr hzero }

theorem orient_far (a b : K) (ha : a ∈ Icc lo hi) (hb : b ∈ Icc lo hi)
    (hsign : g a * g b < 0 ∨ g a = 0 ∨ g b = 0) :
    (orient a b ha hb hsign).far = if |g a| < |g b| then b else a := by
  unfold orient
  split_ifs <;> rfl

theorem orient_best (a b : K) (ha : a ∈ Icc lo hi) (hb : b ∈ Icc lo hi)
    (hsign : g a * g b < 0 ∨ g a = 0 ∨ g b = 0) :
    (orient a b ha hb hsign).best = if |g a| < |g b| then a else b := by
  unfold orient
  split_ifs <;> rfl

omit [IsStrictOrderedRing K] in
theorem uIcc_subset (B : Bracket g lo hi) : uIcc B.far B.best ⊆ Icc lo hi :=
  uIcc_subset_Icc B.far_mem B.best_mem

/-- **A point between the ends**, while neither is a root, takes the place of the one whose sign
it has. -/
def move (B : Bracket g lo hi) (s : K) (hs : s ∈ uIcc B.far B.best) (hroot : g B.best ≠ 0) :
    Bracket g lo hi :=
  if h : g B.far * g s < 0 then orient B.far s B.far_mem (B.uIcc_subset hs) (.inl h)
  else
    orient s B.best (B.uIcc_subset hs) B.best_mem (by
      have hneg : g B.far * g B.best < 0 := B.sign.resolve_right hroot
      rcases mul_neg_iff.mp hneg with ⟨hfar, hbest⟩ | ⟨hfar, hbest⟩
      · rcases (nonneg_of_mul_nonneg_right (not_lt.mp h) hfar).lt_or_eq with hs | hs
        · exact .inl (mul_neg_of_pos_of_neg hs hbest)
        · exact .inr (.inl hs.symm)
      · have hle : g s ≤ 0 := nonpos_of_mul_nonneg_right (not_lt.mp h) hfar
        rcases hle.lt_or_eq with hs | hs
        · exact .inl (mul_neg_of_neg_of_pos hs hbest)
        · exact .inr (.inl hs))

end Bracket

end Field

/-- **A continuous function has a root in every bracket.** -/
theorem Bracket.exists_root {g : ℝ → ℝ} {lo hi : ℝ} (hcont : ContinuousOn g (Icc lo hi))
    (B : Bracket g lo hi) : ∃ z ∈ uIcc B.far B.best, g z = 0 := by
  rcases B.sign with hneg | hzero
  · have hzero : (0 : ℝ) ∈ uIcc (g B.far) (g B.best) := by
      rcases mul_neg_iff.mp hneg with ⟨hfar, hbest⟩ | ⟨hfar, hbest⟩
      · exact mem_uIcc_of_ge hbest.le hfar.le
      · exact mem_uIcc_of_le hfar.le hbest.le
    exact intermediate_value_uIcc (hcont.mono B.uIcc_subset) hzero
  · exact ⟨B.best, right_mem_uIcc, hzero⟩

end Corsair.Verified.Bracketing

import Mathlib
import Corsair.Verified.Extended

/-!
# Numerical code over the real numbers

`Elementary` lists the functions of a mathematics library that a formula calls.  Like `F64` it
has no laws, so that a formula written against both runs on any implementation.

The instance on `ℝ` computes exactly.  It is not executable; it is what a formula means.  A module
that reads formulas so makes it a local instance.
-/

namespace Corsair.Verified

/-- The functions of the standard library on doubles, and the distribution function of the
standard normal law. -/
structure Elementary (F : Type) where
  sqrt : F → F
  ln : F → F
  exp : F → F
  powf : F → F → F
  normCdf : F → F

@[reducible] noncomputable def realF64 : F64 ℝ where
  lt a b := decide (a < b)
  le a b := decide (a ≤ b)
  abs a := |a|
  max := Max.max
  min := Min.min
  round a := Extended.roundAway a
  isFinite _ := true
  isNan _ := false
  lit n places := (n : ℝ) / (10 : ℕ) ^ places
  ofInt n := n
  toInt lo hi a := Max.max lo (Min.min hi (Extended.trunc a))
  fixed places a :=
    (if a < 0 then "-" else "") ++ placePoint places (Extended.roundEven (a * (10 : ℕ) ^ places)).natAbs

attribute [local instance] realF64

@[simp] theorem real_lt (a b : ℝ) : F64.lt a b = decide (a < b) := rfl

@[simp] theorem real_le (a b : ℝ) : F64.le a b = decide (a ≤ b) := rfl

@[simp] theorem real_abs (a : ℝ) : F64.abs a = |a| := rfl

@[simp] theorem real_max (a b : ℝ) : F64.max a b = Max.max a b := rfl

@[simp] theorem real_isFinite (a : ℝ) : F64.isFinite a = true := rfl

@[simp] theorem real_ofInt (n : Int) : (F64.ofInt n : ℝ) = n := rfl

theorem real_lit (n : Int) (places : Nat) : (F64.lit n places : ℝ) = n / 10 ^ places := rfl

@[simp] theorem real_zero : (F64.zero : ℝ) = 0 := by
  rw [F64.zero, real_lit, Int.cast_zero, zero_div]

@[simp] theorem real_whole (n : Int) : (F64.lit n 0 : ℝ) = n := by
  rw [real_lit, pow_zero, div_one]

theorem real_feq (a b : ℝ) : F64.feq a b = decide (a = b) := by
  rw [F64.feq, real_le, real_le, ← Bool.decide_and]
  exact decide_eq_decide.mpr le_antisymm_iff.symm

end Corsair.Verified

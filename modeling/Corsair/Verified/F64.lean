import Mathlib.Data.Rat.Floor
import Mathlib.Algebra.Order.Field.Rat

/-!
# Floating-point code over an arbitrary implementation

`F64` lists the operations of a double that decision code uses: arithmetic,
comparisons, rounding, casts and decimal rendering.  It has no laws.  A model
written against it runs on any implementation, and a theorem proved from it
holds for every one of them, the hardware's included, with its rounding, its
infinities and its not-a-number.

Comparisons are `Bool`-valued operations of the class and not an order: all
of them may be false together.

The instance on `ℚ` computes exactly.  On inputs whose results are
representable it agrees with the hardware, which is what a concrete run needs.
-/

namespace Corsair.Verified

/-- The operations of a double. -/
class F64 (F : Type) extends Add F, Sub F, Mul F, Div F, Neg F where
  lt : F → F → Bool
  le : F → F → Bool
  abs : F → F
  max : F → F → F
  min : F → F → F
  /-- To the nearest integer, halves away from zero. -/
  round : F → F
  isFinite : F → Bool
  isNan : F → Bool
  /-- The decimal literal `n / 10 ^ places`. -/
  lit : Int → Nat → F
  ofInt : Int → F
  /-- The cast to an integer type with range `lo..hi`: towards zero,
  saturating. -/
  toInt : (lo hi : Int) → F → Int
  /-- Rendering with a fixed number of decimal places. -/
  fixed : Nat → F → String

namespace F64

variable {F : Type} [F64 F]

/-- `a > b`. -/
def gt (a b : F) : Bool := lt b a

/-- `a >= b`. -/
def ge (a b : F) : Bool := le b a

/-- `a == b`. -/
def feq (a b : F) : Bool := le a b && le b a

/-- `0.0`. -/
def zero : F := lit 0 0

end F64

/-- Where a theorem needs a law of the casts, it says so: zero is cast to
zero. -/
class LawfulCasts (F : Type) [F64 F] : Prop where
  toInt_zero : ∀ lo hi : Int, lo ≤ 0 → 0 ≤ hi → F64.toInt lo hi (F64.zero : F) = 0

/-- Where a theorem compares a ratio with one, it names the laws that it rests on: one is
not below itself, and zero is, by itself and over a positive number. -/
class LawfulUnit (F : Type) [F64 F] : Prop where
  one_not_lt : F64.lt (F64.lit 1 0 : F) (F64.lit 1 0) = false
  zero_lt_one : F64.lt (F64.zero : F) (F64.lit 1 0) = true
  zero_div_lt_one : ∀ c : F, F64.gt c F64.zero = true → F64.lt (F64.zero / c) (F64.lit 1 0) = true

/-! ## Exact rationals -/

/-- Towards zero. -/
def ratTrunc (q : ℚ) : Int := if 0 ≤ q then q.floor else -(-q).floor

/-- Halves away from zero. -/
def ratRound (q : ℚ) : Int :=
  if 0 ≤ q then (q + 1 / 2).floor else -((-q) + 1 / 2).floor

@[simp] theorem ratTrunc_intCast (n : Int) : ratTrunc n = n := by
  unfold ratTrunc
  split
  · exact Rat.floor_intCast n
  · rw [← Int.cast_neg, Rat.floor_intCast, neg_neg]

/-- Rounding moves a number by a half at most. -/
theorem abs_sub_ratRound_le (q : ℚ) : |q - ratRound q| ≤ 1 / 2 := by
  have hfloor (r : ℚ) : |r - ((r + 1 / 2).floor : ℚ)| ≤ 1 / 2 := by
    have hle : (((r + 1 / 2).floor : Int) : ℚ) ≤ r + 1 / 2 := Int.floor_le (r + 1 / 2)
    have hlt : r + 1 / 2 < ((r + 1 / 2).floor : Int) + 1 := Int.lt_floor_add_one (r + 1 / 2)
    rw [abs_le]
    constructor
    · linarith
    · linarith
  unfold ratRound
  split
  · exact hfloor q
  · have hneg : q - ((-(-q + 1 / 2).floor : Int) : ℚ) = -(-q - ((-q + 1 / 2).floor : Int)) := by
      push_cast
      ring
    rw [hneg, abs_neg]
    exact hfloor (-q)

@[simp] theorem ratRound_intCast (n : Int) : ratRound n = n := by
  have hdist : ((|n - ratRound n| : Int) : ℚ) < 1 := by
    push_cast
    exact (abs_sub_ratRound_le n).trans_lt (by norm_num)
  have hzero : n - ratRound n = 0 := Int.abs_lt_one_iff.mp (by exact_mod_cast hdist)
  omega

/-- A number that is not negative is rounded up from its middle on. -/
theorem ratRound_of_nonneg {q : ℚ} (hq : 0 ≤ q) : ratRound q = ⌊q + 1 / 2⌋ := if_pos hq

theorem le_ratRound {q : ℚ} (hq : 0 ≤ q) (n : Int) : n ≤ ratRound q ↔ (n : ℚ) ≤ q + 1 / 2 := by
  rw [ratRound_of_nonneg hq]
  exact Int.le_floor

theorem ratRound_lt {q : ℚ} (hq : 0 ≤ q) (n : Int) : ratRound q < n ↔ q + 1 / 2 < n := by
  rw [ratRound_of_nonneg hq]
  exact Int.floor_lt

/-- Halves to even, as decimal rendering does. -/
def ratRoundEven (q : ℚ) : Int :=
  let down := q.floor
  let rest := q - down
  if rest < 1 / 2 then down
  else if 1 / 2 < rest then down + 1
  else if down % 2 = 0 then down else down + 1

/-- `digits` with a decimal point before the last `places` of them. -/
def placePoint (places digits : Nat) : String :=
  if places = 0 then toString digits
  else
    let frac := toString (digits % 10 ^ places)
    toString (digits / 10 ^ places) ++ "." ++
      String.ofList (List.replicate (places - frac.length) '0') ++ frac

def ratFixed (places : Nat) (q : ℚ) : String :=
  let scaled := ratRoundEven (q * 10 ^ places)
  (if q < 0 then "-" else "") ++ placePoint places scaled.natAbs

instance ratF64 : F64 ℚ where
  lt a b := decide (a < b)
  le a b := decide (a ≤ b)
  abs a := if a < 0 then -a else a
  max a b := if a ≤ b then b else a
  min a b := if a ≤ b then a else b
  round a := ratRound a
  isFinite _ := true
  isNan _ := false
  lit n places := (n : ℚ) / 10 ^ places
  ofInt n := n
  toInt lo hi a := Max.max lo (Min.min hi (ratTrunc a))
  fixed := ratFixed

@[simp] theorem rat_ofInt (n : Int) : (F64.ofInt n : ℚ) = n := rfl

theorem rat_lit (n : Int) (places : Nat) : (F64.lit n places : ℚ) = n / 10 ^ places := rfl

@[simp] theorem rat_zero : (F64.zero : ℚ) = 0 := by
  rw [F64.zero, rat_lit, Int.cast_zero, zero_div]

theorem rat_lt (a b : ℚ) : F64.lt a b = decide (a < b) := rfl

theorem rat_le (a b : ℚ) : F64.le a b = decide (a ≤ b) := rfl

theorem rat_min (a b : ℚ) : F64.min a b = Min.min a b := (min_def a b).symm

theorem rat_max (a b : ℚ) : F64.max a b = Max.max a b := (max_def a b).symm

theorem rat_abs (a : ℚ) : F64.abs a = |a| := by
  show (if a < 0 then -a else a) = |a|
  split_ifs with h
  · exact (abs_of_neg h).symm
  · exact (abs_of_nonneg (not_lt.mp h)).symm

/-- Rounding to a grid moves a number by half a step at most. -/
theorem abs_grid_sub_le (x : ℚ) {step : ℚ} (hstep : 0 < step) :
    |F64.round (x / step) * step - x| ≤ step / 2 := by
  have hround : |x / step - (ratRound (x / step) : ℚ)| ≤ 1 / 2 := abs_sub_ratRound_le (x / step)
  have hscale : (ratRound (x / step) : ℚ) * step - x =
      -((x / step - (ratRound (x / step) : ℚ)) * step) := by
    field_simp
    ring
  show |(ratRound (x / step) : ℚ) * step - x| ≤ step / 2
  rw [hscale, abs_neg, abs_mul, abs_of_pos hstep]
  calc |x / step - (ratRound (x / step) : ℚ)| * step ≤ 1 / 2 * step :=
        mul_le_mul_of_nonneg_right hround hstep.le
    _ = step / 2 := by ring

/-- A number is rounded to a positive multiple of the step from half a step on. -/
theorem grid_pos_iff (x : ℚ) {step : ℚ} (hstep : 0 < step) :
    0 < F64.round (x / step) * step ↔ step / 2 ≤ x := by
  have hround : 0 < ratRound (x / step) ↔ 1 / 2 ≤ x / step := by
    by_cases hx : 0 ≤ x / step
    · have hone := le_ratRound hx 1
      rw [Int.cast_one] at hone
      rw [← Int.zero_add 1, Int.add_one_le_iff] at hone
      rw [hone]
      constructor
      · intro h
        linarith
      · intro h
        linarith
    · have hneg : ¬ 0 < ratRound (x / step) := by
        have hfloor : 0 ≤ ⌊-(x / step) + 1 / 2⌋ := Int.floor_nonneg.mpr (by linarith)
        have hvalue : ratRound (x / step) = -⌊-(x / step) + 1 / 2⌋ := if_neg hx
        omega
      exact iff_of_false hneg (by linarith)
  have hpos : 0 < F64.round (x / step) * step ↔ 0 < ratRound (x / step) := by
    show 0 < (ratRound (x / step) : ℚ) * step ↔ 0 < ratRound (x / step)
    rw [mul_pos_iff_of_pos_right hstep, Int.cast_pos]
  have hscale : 1 / 2 ≤ x / step ↔ step / 2 ≤ x := by
    rw [le_div_iff₀ hstep, one_div_mul_eq_div]
  rw [hpos, hround, hscale]

instance ratLawfulCasts : LawfulCasts ℚ where
  toInt_zero lo hi hlo hhi := by
    have hzero : ratTrunc (F64.zero : ℚ) = 0 := by rw [rat_zero]; rfl
    show Max.max lo (Min.min hi (ratTrunc F64.zero)) = 0
    rw [hzero]
    omega

instance ratLawfulUnit : LawfulUnit ℚ where
  one_not_lt := by simp [rat_lt]
  zero_lt_one := by simp [rat_lt, rat_lit]
  zero_div_lt_one c _ := by simp [rat_lt, rat_lit]

example : ratFixed 0 (5 / 2) = "2" ∧ ratFixed 1 (-21 / 4) = "-5.2" := by
  decide +kernel

end Corsair.Verified

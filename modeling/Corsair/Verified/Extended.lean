import Mathlib.Algebra.Order.Floor.Ring
import Mathlib.Algebra.Order.Field.Basic
import Mathlib.Tactic.Linarith
import Corsair.Verified.F64

/-!
# Exact numbers with the infinities and the not-a-number of a double

`Extended K` adds to an ordered field the three values of a double that are no numbers.
Numbers are computed exactly, without rounding and without overflow, and with one zero; the
other values follow the rules of a double: what has a not-a-number in it is one, or, where it
is a comparison, false.

It is an implementation of `F64` over any ordered field with a floor, so that a theorem over
it is one about the reals, and a run over `Extended ℚ` can be evaluated.

## Main results

* `isFinite_iff` — the finite values are the numbers.
* `lt_add_fin`, `le_add_fin`, `add_fin_le` — what adding a number does to the order.
-/

namespace Corsair.Verified

/-- A number, an infinity, or no number. -/
inductive Extended (K : Type)
  | fin (x : K)
  | posInf
  | negInf
  | nan
  deriving DecidableEq, Repr

namespace Extended

variable {K : Type} [Field K] [LinearOrder K]

/-! ## Arithmetic -/

/-- The infinity with the sign of a number; zero has none. -/
def infinityOf (x : K) : Extended K :=
  if 0 < x then .posInf else if x < 0 then .negInf else .nan

def neg : Extended K → Extended K
  | .fin x => .fin (-x)
  | .posInf => .negInf
  | .negInf => .posInf
  | .nan => .nan

def add : Extended K → Extended K → Extended K
  | .fin x, .fin y => .fin (x + y)
  | .fin _, b => b
  | a, .fin _ => a
  | .posInf, .posInf => .posInf
  | .negInf, .negInf => .negInf
  | _, _ => .nan

def mul : Extended K → Extended K → Extended K
  | .fin x, .fin y => .fin (x * y)
  | .fin x, .posInf => infinityOf x
  | .fin x, .negInf => infinityOf (-x)
  | .posInf, .fin y => infinityOf y
  | .negInf, .fin y => infinityOf (-y)
  | .posInf, .posInf => .posInf
  | .posInf, .negInf => .negInf
  | .negInf, .posInf => .negInf
  | .negInf, .negInf => .posInf
  | _, _ => .nan

/-- The zero below a fraction is the positive one. -/
def div : Extended K → Extended K → Extended K
  | .fin x, .fin y => if y = 0 then infinityOf x else .fin (x / y)
  | .fin _, .posInf => .fin 0
  | .fin _, .negInf => .fin 0
  | .posInf, .fin y => if y < 0 then .negInf else .posInf
  | .negInf, .fin y => if y < 0 then .posInf else .negInf
  | _, _ => .nan

/-! ## Comparisons -/

def lt : Extended K → Extended K → Bool
  | .fin x, .fin y => decide (x < y)
  | .fin _, .posInf => true
  | .negInf, .fin _ => true
  | .negInf, .posInf => true
  | _, _ => false

def le : Extended K → Extended K → Bool
  | .fin x, .fin y => decide (x ≤ y)
  | .fin _, .posInf => true
  | .negInf, .fin _ => true
  | .negInf, .posInf => true
  | .posInf, .posInf => true
  | .negInf, .negInf => true
  | _, _ => false

def abs : Extended K → Extended K
  | .fin x => .fin (if x < 0 then -x else x)
  | .posInf => .posInf
  | .negInf => .posInf
  | .nan => .nan

/-- Of a number and a not-a-number, the number. -/
def max : Extended K → Extended K → Extended K
  | .nan, b => b
  | a, .nan => a
  | a, b => if le a b then b else a

def min : Extended K → Extended K → Extended K
  | .nan, b => b
  | a, .nan => a
  | a, b => if le a b then a else b

/-! ## Rounding, casts and rendering -/

section Floor

variable [FloorRing K]

/-- Towards zero. -/
def trunc (x : K) : Int := if 0 ≤ x then ⌊x⌋ else -⌊-x⌋

/-- Halves away from zero. -/
def roundAway (x : K) : Int := if 0 ≤ x then ⌊x + 1 / 2⌋ else -⌊-x + 1 / 2⌋

/-- Halves to even. -/
def roundEven (x : K) : Int :=
  let rest := x - ⌊x⌋
  if rest < 1 / 2 then ⌊x⌋
  else if 1 / 2 < rest then ⌊x⌋ + 1
  else if ⌊x⌋ % 2 = 0 then ⌊x⌋ else ⌊x⌋ + 1

def round : Extended K → Extended K
  | .fin x => .fin (roundAway x)
  | a => a

/-- No number is cast to zero. -/
def toInt (lo hi : Int) : Extended K → Int
  | .fin x => Max.max lo (Min.min hi (trunc x))
  | .posInf => hi
  | .negInf => lo
  | .nan => Max.max lo (Min.min hi 0)

def fixed (places : Nat) : Extended K → String
  | .fin x =>
      (if x < 0 then "-" else "") ++ placePoint places (roundEven (x * 10 ^ places)).natAbs
  | .posInf => "inf"
  | .negInf => "-inf"
  | .nan => "NaN"

instance : F64 (Extended K) where
  add := add
  sub a b := add a (neg b)
  mul := mul
  div := div
  neg := neg
  lt := lt
  le := le
  abs := abs
  max := max
  min := min
  round := round
  isFinite a := match a with
    | .fin _ => true
    | _ => false
  isNan a := match a with
    | .nan => true
    | _ => false
  lit n places := .fin ((n : K) / 10 ^ places)
  ofInt n := .fin n
  toInt := toInt
  fixed := fixed

/-! ## Numbers -/

@[simp] theorem neg_fin (x : K) : -(fin x) = fin (-x) := rfl

@[simp] theorem add_fin (x y : K) : fin x + fin y = fin (x + y) := rfl

@[simp] theorem mul_fin (x y : K) : fin x * fin y = fin (x * y) := rfl

@[simp] theorem lt_fin (x y : K) : F64.lt (fin x) (fin y) = decide (x < y) := rfl

@[simp] theorem le_fin (x y : K) : F64.le (fin x) (fin y) = decide (x ≤ y) := rfl

@[simp] theorem ofInt_eq (n : Int) : (F64.ofInt n : Extended K) = fin (n : K) := rfl

@[simp] theorem zero_eq : (F64.zero : Extended K) = fin 0 := by
  show fin (((0 : Int) : K) / 10 ^ 0) = fin 0
  rw [Int.cast_zero, zero_div]

theorem div_fin (x : K) {y : K} (hy : y ≠ 0) : fin x / fin y = fin (x / y) := if_neg hy

theorem lit_whole (n : Int) : (F64.lit n 0 : Extended K) = fin (n : K) := by
  show fin ((n : K) / 10 ^ 0) = fin (n : K)
  rw [pow_zero, div_one]

/-- The finite values are the numbers. -/
theorem isFinite_iff {a : Extended K} : F64.isFinite a = true ↔ ∃ x, a = fin x := by
  cases a with
  | fin x => exact iff_of_true rfl ⟨x, rfl⟩
  | posInf => exact iff_of_false (fun h => (nomatch h)) fun ⟨_, h⟩ => (nomatch h)
  | negInf => exact iff_of_false (fun h => (nomatch h)) fun ⟨_, h⟩ => (nomatch h)
  | nan => exact iff_of_false (fun h => (nomatch h)) fun ⟨_, h⟩ => (nomatch h)

/-! ## Adding a number -/

variable [IsStrictOrderedRing K]

theorem lt_add_fin (x : K) {y : K} (hy : 0 < y) : F64.lt (fin x) (fin x + fin y) = true := by
  rw [add_fin, lt_fin]
  exact decide_eq_true (lt_add_of_pos_right x hy)

/-- Adding a number that is not negative takes no number and no infinity down. -/
theorem le_add_fin {a : Extended K} (ha : a ≠ nan) {y : K} (hy : 0 ≤ y) :
    F64.le a (a + fin y) = true := by
  cases a with
  | fin x =>
      rw [add_fin, le_fin]
      exact decide_eq_true (le_add_of_nonneg_right hy)
  | posInf => rfl
  | negInf => rfl
  | nan => exact absurd rfl ha

theorem add_fin_le {a : Extended K} (ha : a ≠ nan) {y : K} (hy : y ≤ 0) :
    F64.le (a + fin y) a = true := by
  cases a with
  | fin x =>
      rw [add_fin, le_fin]
      exact decide_eq_true (add_le_of_nonpos_right hy)
  | posInf => rfl
  | negInf => rfl
  | nan => exact absurd rfl ha

omit [IsStrictOrderedRing K] in
theorem ne_nan_of_lt {a b : Extended K} (h : F64.lt a b = true) : a ≠ nan ∧ b ≠ nan := by
  constructor
  · rintro rfl
    cases h
  · rintro rfl
    cases a <;> cases h

end Floor

end Extended

end Corsair.Verified

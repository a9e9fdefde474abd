import Mathlib.Algebra.Ring.Int.Defs
import Mathlib.Algebra.Ring.Nat
import Mathlib.Data.List.Basic

/-!
# Fixed-width big-endian numerals over bytes

`toBytes k n` is the `k`-byte big-endian numeral of `n`, truncated to `k`
bytes as a cast to a `k`-byte unsigned integer truncates.  `ofBytes` reads a
numeral of any width.  Reading a numeral back gives the truncated value
(`ofBytes_toBytes`), hence the value itself where it fits
(`ofBytes_toBytes_of_lt`), and every numeral is that of its value
(`toBytes_ofBytes`).
-/

namespace Corsair.Verified.BigEndian

/-- The `k`-byte big-endian numeral of `n % 256 ^ k`. -/
def toBytes : Nat → Nat → List UInt8
  | 0, _ => []
  | k + 1, n => UInt8.ofNat (n / 256 ^ k) :: toBytes k n

/-- The value of a big-endian numeral. -/
def ofBytes (bytes : List UInt8) : Nat :=
  bytes.foldl (fun acc b => acc * 256 + b.toNat) 0

@[simp] theorem toBytes_length (k n : Nat) : (toBytes k n).length = k := by
  induction k with
  | zero => rfl
  | succ k ih => simp [toBytes, ih]

private theorem foldl_toBytes (k n acc : Nat) :
    (toBytes k n).foldl (fun acc b => acc * 256 + b.toNat) acc =
      acc * 256 ^ k + n % 256 ^ k := by
  induction k generalizing acc with
  | zero => simp [toBytes, Nat.mod_one]
  | succ k ih =>
      have hdigit : (UInt8.ofNat (n / 256 ^ k)).toNat = n / 256 ^ k % 256 :=
        UInt8.toNat_ofNat
      rw [toBytes, List.foldl_cons, ih, hdigit, Nat.mod_pow_succ, Nat.pow_succ]
      grind

/-- A numeral read back is the value truncated to its width. -/
theorem ofBytes_toBytes (k n : Nat) : ofBytes (toBytes k n) = n % 256 ^ k := by
  rw [ofBytes, foldl_toBytes, Nat.zero_mul, Nat.zero_add]

/-- A value that fits is read back unchanged. -/
theorem ofBytes_toBytes_of_lt {k n : Nat} (h : n < 256 ^ k) :
    ofBytes (toBytes k n) = n := by
  rw [ofBytes_toBytes, Nat.mod_eq_of_lt h]

theorem ofBytes_cons (b : UInt8) (bytes : List UInt8) :
    ofBytes (b :: bytes) = b.toNat * 256 ^ bytes.length + ofBytes bytes := by
  have hfold (bytes : List UInt8) (acc : Nat) :
      bytes.foldl (fun acc b => acc * 256 + b.toNat) acc =
        acc * 256 ^ bytes.length + ofBytes bytes := by
    induction bytes generalizing acc with
    | nil => simp [ofBytes]
    | cons b bytes ih =>
        have hvalue : ofBytes (b :: bytes) =
            (0 * 256 + b.toNat) * 256 ^ bytes.length + ofBytes bytes := ih (0 * 256 + b.toNat)
        rw [List.foldl_cons, ih, hvalue, List.length_cons, Nat.pow_succ]
        grind
  rw [ofBytes, List.foldl_cons, hfold, Nat.zero_mul, Nat.zero_add]

theorem ofBytes_lt (bytes : List UInt8) : ofBytes bytes < 256 ^ bytes.length := by
  induction bytes with
  | nil => decide
  | cons b bytes ih =>
      have hb : b.toNat + 1 ≤ 256 := b.toNat_lt
      have hmul := Nat.mul_le_mul_right (256 ^ bytes.length) hb
      rw [Nat.add_mul, Nat.one_mul] at hmul
      rw [ofBytes_cons, List.length_cons, Nat.pow_succ]
      omega

/-- Digits above the width make no difference. -/
theorem toBytes_mul_add (k high n : Nat) : toBytes k (high * 256 ^ k + n) = toBytes k n := by
  induction k generalizing high with
  | zero => rfl
  | succ k ih =>
      have hpos : 0 < 256 ^ k := Nat.pow_pos (by decide)
      have hshift : high * 256 ^ (k + 1) + n = high * 256 * 256 ^ k + n := by
        rw [Nat.pow_succ, Nat.mul_comm (256 ^ k) 256, Nat.mul_assoc]
      have hdigit : UInt8.ofNat ((high * 256 * 256 ^ k + n) / 256 ^ k) =
          UInt8.ofNat (n / 256 ^ k) := by
        rw [Nat.mul_comm, Nat.mul_add_div hpos]
        apply UInt8.toNat_inj.mp
        rw [UInt8.toNat_ofNat', UInt8.toNat_ofNat', Nat.mul_add_mod_self_right]
      rw [toBytes, toBytes, hshift, hdigit, ih (high * 256)]

/-- A numeral is that of its value. -/
theorem toBytes_ofBytes (bytes : List UInt8) : toBytes bytes.length (ofBytes bytes) = bytes := by
  induction bytes with
  | nil => rfl
  | cons b bytes ih =>
      have hpos : 0 < 256 ^ bytes.length := Nat.pow_pos (by decide)
      have hdigit : (b.toNat * 256 ^ bytes.length + ofBytes bytes) / 256 ^ bytes.length =
          b.toNat := by
        rw [Nat.mul_comm, Nat.mul_add_div hpos, Nat.div_eq_of_lt (ofBytes_lt bytes), Nat.add_zero]
      rw [ofBytes_cons, List.length_cons, toBytes, hdigit, toBytes_mul_add, ih, UInt8.ofNat_toNat]

end Corsair.Verified.BigEndian

import Mathlib.Algebra.Order.Field.Power
import Mathlib.Algebra.Order.Field.Rat
import Mathlib.Data.Nat.Log
import Mathlib.Tactic.FieldSimp
import Mathlib.Tactic.Linarith
import Mathlib.Tactic.Ring

/-!
# Decimals

Finite decimal numbers with a sign, a coefficient and an exponent, and their arithmetic in a context
of 28 digits: results are exact as far as they fit, and rounded half-even beyond.
-/

namespace Decimals

/-! ## Numbers -/

structure Decimal where
  negative : Bool
  coefficient : ℕ
  exponent : ℤ
  deriving DecidableEq

/-- The digits of a context. -/
def prec : ℕ := 28

inductive Rounding
  | halfUp
  | halfEven

/-- `n / d`, rounded to a neighbour, and in the middle up or to the even one. -/
def Rounding.div (mode : Rounding) (n d : ℕ) : ℕ :=
  match mode with
  | halfUp => (2 * n + d) / (2 * d)
  | halfEven => if 2 * (n % d) = d then n / d + n / d % 2 else (2 * n + d) / (2 * d)

namespace Decimal

/-- The coefficient with the sign. -/
def signed (x : Decimal) : ℤ := if x.negative then -x.coefficient else x.coefficient

def value (x : Decimal) : ℚ := x.signed * 10 ^ x.exponent

/-- The number at another exponent. -/
def rescale (x : Decimal) (exponent : ℤ) (mode : Rounding) : Decimal :=
  if exponent ≤ x.exponent then
    ⟨x.negative, x.coefficient * 10 ^ (x.exponent - exponent).toNat, exponent⟩
  else ⟨x.negative, mode.div x.coefficient (10 ^ (exponent - x.exponent).toNat), exponent⟩

/-- The number in the digits of the context. -/
def fix (x : Decimal) : Decimal :=
  if x.coefficient < 10 ^ prec then x
  else
    let y := x.rescale (x.exponent + (Nat.log 10 x.coefficient + 1 - prec : ℕ)) .halfEven
    if y.coefficient < 10 ^ prec then y else ⟨y.negative, 10 ^ (prec - 1), y.exponent + 1⟩

/-- `x.quantize(exp, rounding=mode)`, which raises if the digits do not suffice. -/
def quantize (x exp : Decimal) (mode : Rounding) : Option Decimal :=
  let y := x.rescale exp.exponent mode
  if y.coefficient < 10 ^ prec then some y else none

def ofInt (n : ℤ) : Decimal := ⟨decide (n < 0), n.natAbs, 0⟩

/-- `int(x)`, which drops the fraction. -/
def toInt (x : Decimal) : ℤ :=
  if 0 ≤ x.exponent then x.signed * 10 ^ x.exponent.toNat
  else
    let whole : ℤ := (x.coefficient / 10 ^ (-x.exponent).toNat : ℕ)
    if x.negative then -whole else whole

def sub (x y : Decimal) : Decimal :=
  let exponent := min x.exponent y.exponent
  let d := (x.rescale exponent .halfEven).signed - (y.rescale exponent .halfEven).signed
  fix ⟨if d = 0 then x.negative && !y.negative else decide (d < 0), d.natAbs, exponent⟩

def mul (x y : Decimal) : Decimal :=
  fix ⟨x.negative != y.negative, x.coefficient * y.coefficient, x.exponent + y.exponent⟩

def abs (x : Decimal) : Decimal := fix ⟨false, x.coefficient, x.exponent⟩

/-- `x.to_integral_value()` -/
def toIntegralValue (x : Decimal) : Decimal :=
  if 0 ≤ x.exponent then x else x.rescale 0 .halfEven

/-! ## Values -/

theorem fix_of_lt {x : Decimal} (h : x.coefficient < 10 ^ prec) : x.fix = x := if_pos h

theorem natAbs_signed (x : Decimal) : x.signed.natAbs = x.coefficient := by
  unfold signed
  split <;> omega

theorem abs_value (x : Decimal) : |x.value| = x.coefficient * 10 ^ x.exponent := by
  have hpos : (0 : ℚ) < 10 ^ x.exponent := zpow_pos (by norm_num) _
  have hsigned : |(x.signed : ℚ)| = x.coefficient := by
    rw [← Int.cast_abs, Int.abs_eq_natAbs, natAbs_signed, Int.cast_natCast]
  rw [value, abs_mul, hsigned, abs_of_pos hpos]

/-- A number that is rounded half-up is `n` at least if it is not below `n - 1/2`. -/
theorem le_rescale_iff (x : Decimal) (exponent : ℤ) (n : ℕ) :
    n ≤ (x.rescale exponent .halfUp).coefficient ↔ (n : ℚ) - 1 / 2 ≤ |x.value| / 10 ^ exponent := by
  have hten : (10 : ℚ) ≠ 0 := by norm_num
  rw [abs_value, mul_div_assoc, ← zpow_sub₀ hten]
  unfold rescale
  split
  · next hle =>
    obtain ⟨k, hk⟩ := Int.eq_ofNat_of_zero_le (Int.sub_nonneg.mpr hle)
    rw [hk, Int.toNat_natCast, zpow_natCast]
    constructor
    · intro h
      have hcast : (n : ℚ) ≤ x.coefficient * 10 ^ k := by exact_mod_cast h
      linarith
    · intro h
      by_contra hlt
      have hcast : (x.coefficient * 10 ^ k + 1 : ℚ) ≤ n := by exact_mod_cast Nat.lt_of_not_le hlt
      linarith
  · next hlt =>
    obtain ⟨k, hk⟩ := Int.eq_ofNat_of_zero_le (a := exponent - x.exponent) (by omega)
    have hneg : x.exponent - exponent = -(k : ℤ) := by omega
    have hpos : (0 : ℚ) < 10 ^ k := by positivity
    show n ≤ (2 * x.coefficient + 10 ^ (exponent - x.exponent).toNat) /
      (2 * 10 ^ (exponent - x.exponent).toNat) ↔ _
    rw [hk, Int.toNat_natCast, hneg, zpow_neg, zpow_natCast, ← div_eq_mul_inv,
      Nat.le_div_iff_mul_le (by positivity), le_div_iff₀ hpos]
    constructor
    · intro h
      have hcast : (n * (2 * 10 ^ k) : ℚ) ≤ 2 * x.coefficient + 10 ^ k := by exact_mod_cast h
      linarith
    · intro h
      have hcast : (n * (2 * 10 ^ k) : ℚ) ≤ 2 * x.coefficient + 10 ^ k := by linarith
      exact_mod_cast hcast

end Decimal

end Decimals

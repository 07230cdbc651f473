import Mathlib.Algebra.Order.Round
import Mathlib.Data.Rat.Floor
import Mathlib.Tactic.FieldSimp
import Mathlib.Tactic.Linarith
import Mathlib.Tactic.Positivity

/-!
# Decimal numbers

A `Decimal` is an integer coefficient and a number of decimal places: `⟨c, k⟩` stands for
`c / 10 ^ k`.  Arithmetic is exact.  `Decimal.ceil` and `Decimal.round` are computed on the
coefficient; `ceil_eq` says what the first means as a rational number.
-/

namespace NexusTok

/-- The decimal number `coeff / 10 ^ scale`. -/
structure Decimal where
  /-- The coefficient. -/
  coeff : ℤ
  /-- The number of decimal places. -/
  scale : ℕ
  deriving DecidableEq

namespace Decimal

/-- The rational number a decimal stands for. -/
def toRat (d : Decimal) : ℚ := d.coeff / 10 ^ d.scale

/-- `decimal.NewFromInt`. -/
def ofInt (n : ℤ) : Decimal := ⟨n, 0⟩

def mul (a b : Decimal) : Decimal := ⟨a.coeff * b.coeff, a.scale + b.scale⟩

/-- `Decimal.Ceil`, as an integer. -/
def ceil (d : Decimal) : ℤ := -(-d.coeff / 10 ^ d.scale)

/-- `Decimal.Round(0)`, as an integer: to the nearest one, halves away from zero. -/
def round (d : Decimal) : ℤ :=
  if 0 ≤ d.coeff then (2 * d.coeff + 10 ^ d.scale) / (2 * 10 ^ d.scale)
  else -((2 * -d.coeff + 10 ^ d.scale) / (2 * 10 ^ d.scale))

theorem toRat_mul (a b : Decimal) : (a.mul b).toRat = a.toRat * b.toRat := by
  simp only [toRat, mul, Int.cast_mul, pow_add]
  rw [div_mul_div_comm]

theorem ceil_eq (d : Decimal) : d.ceil = ⌈d.toRat⌉ := by
  have h := Rat.floor_intCast_div_natCast (-d.coeff) (10 ^ d.scale)
  have hneg : ((-d.coeff : ℤ) : ℚ) / ((10 ^ d.scale : ℕ) : ℚ) = -d.toRat := by
    simp [toRat, neg_div]
  rw [hneg, Int.floor_neg] at h
  rw [ceil, eq_comm, ← neg_eq_iff_eq_neg, h]
  push_cast
  rfl

theorem toRat_nonneg_iff (d : Decimal) : 0 ≤ d.toRat ↔ 0 ≤ d.coeff := by
  have h : (0 : ℚ) < 10 ^ d.scale := by positivity
  rw [toRat, le_div_iff₀ h, zero_mul, Int.cast_nonneg_iff]

theorem toRat_pos_iff (d : Decimal) : 0 < d.toRat ↔ 0 < d.coeff := by
  have h : (0 : ℚ) < 10 ^ d.scale := by positivity
  rw [toRat, lt_div_iff₀ h, zero_mul, Int.cast_pos]

@[simp] theorem round_ofInt (n : ℤ) : (ofInt n).round = n := by
  simp only [round, ofInt, pow_zero, mul_one]
  split_ifs with h <;> omega

end Decimal

end NexusTok

import Mathlib.Algebra.Order.Ring.Int
import Mathlib.Data.Prod.Lex

/-!
# The order of the floating-point numbers

What is not a number compares with nothing, and the two zeros are equal, so the comparisons of
`Float` are no order. The numbers are in order all the same: each has a place in a linear order,
and one is below another if its place is.

* `float_lt_iff`, `float_le_iff`, `float_beq_iff`: the comparisons of numbers are those of their
  places;
* `float_not_lt_iff`: what is not below a number is above it, equal to it or no number.
-/

namespace LteMac

open Float.Model

/-- The place of an unpacked number: by its sign and kind, then by its exponent, then by its
mantissa. -/
def unpackedPlace : UnpackedFloat → ℤ ×ₗ ℤ ×ₗ ℤ
  | .infinity .negative => toLex (-2, toLex (0, 0))
  | .finite .negative mantissa exponent _ => toLex (-1, toLex (-exponent, -mantissa))
  | .zero _ | .notANumber => toLex (0, toLex (0, 0))
  | .finite .positive mantissa exponent _ => toLex (1, toLex (exponent, mantissa))
  | .infinity .positive => toLex (2, toLex (0, 0))

section Unpacked

variable {u v : UnpackedFloat}

theorem compare_natCast (m n : Nat) : compare (m : ℤ) n = compare m n := by
  rw [← cmp_eq_compare, ← cmp_eq_compare]
  exact Nat.strictMono_cast.cmp_map_eq m n

theorem compare_neg (i j : ℤ) : compare (-i) (-j) = (compare i j).swap := by
  rw [Int.compare_swap, ← cmp_eq_compare, ← cmp_eq_compare]
  exact StrictAnti.cmp_map_eq (fun _ _ => neg_lt_neg) i j

/-- To compare two numbers is to compare their places. -/
theorem compare_unpacked (hu : u.isNaN = false) (hv : v.isNaN = false) :
    u.compare v = some (compare (unpackedPlace u) (unpackedPlace v)) := by
  rcases u with (_ | _) | _ | (_ | _) | ⟨_ | _, m, i⟩ <;>
    rcases v with (_ | _) | _ | (_ | _) | ⟨_ | _, n, j⟩ <;>
    try first | rfl | exact Bool.noConfusion hu | exact Bool.noConfusion hv
  -- Only the finite numbers of one sign are compared by exponent and mantissa.
  case finite.negative.finite.negative =>
    change _ = some ((compare (-i) (-j)).then (compare (-(m : ℤ)) (-n)))
    rw [compare_neg, compare_neg, compare_natCast, ← Ordering.swap_then]
    rfl
  case finite.positive.finite.positive =>
    change _ = some ((compare i j).then (compare (m : ℤ) n))
    rw [compare_natCast]
    rfl

theorem unpacked_lt_iff (hu : u.isNaN = false) (hv : v.isNaN = false) :
    u.lt v = true ↔ unpackedPlace u < unpackedPlace v := by
  rw [UnpackedFloat.lt, compare_unpacked hu hv, beq_iff_eq, Option.some_inj, compare_lt_iff_lt]

theorem unpacked_le_iff (hu : u.isNaN = false) (hv : v.isNaN = false) :
    u.le v = true ↔ unpackedPlace u ≤ unpackedPlace v := by
  rw [UnpackedFloat.le, compare_unpacked hu hv, Option.any_some, ← Ordering.ne_gt_iff_isLE]
  exact compare_le_iff_le

theorem unpacked_beq_iff (hu : u.isNaN = false) (hv : v.isNaN = false) :
    u.beq v = true ↔ unpackedPlace u = unpackedPlace v := by
  change (u.compare v == some .eq) = true ↔ _
  rw [compare_unpacked hu hv, beq_iff_eq, Option.some_inj, compare_eq_iff_eq]

end Unpacked

/-- The place of a number among the numbers. -/
def floatPlace (x : Float) : ℤ ×ₗ ℤ ×ₗ ℤ := unpackedPlace x.toModel.unpack

section Float

variable {x y : Float}

theorem float_lt_iff (hx : x.isNaN = false) (hy : y.isNaN = false) :
    x < y ↔ floatPlace x < floatPlace y :=
  decide_eq_true_iff.trans (unpacked_lt_iff hx hy)

theorem float_le_iff (hx : x.isNaN = false) (hy : y.isNaN = false) :
    x ≤ y ↔ floatPlace x ≤ floatPlace y :=
  decide_eq_true_iff.trans (unpacked_le_iff hx hy)

theorem float_beq_iff (hx : x.isNaN = false) (hy : y.isNaN = false) :
    (x == y) = true ↔ floatPlace x = floatPlace y :=
  unpacked_beq_iff hx hy

/-- What is not a number is below nothing. -/
theorem float_not_lt_of_isNaN (hx : x.isNaN = true) : ¬x < y := by
  change ¬decide (x.toModel.unpack.lt y.toModel.unpack = true) = true
  change x.toModel.unpack.isNaN = true at hx
  cases hu : x.toModel.unpack with
  | notANumber => exact Bool.false_ne_true
  | _ => rw [hu] at hx; cases hx

/-- Nothing is below what is not a number. -/
theorem float_not_lt_isNaN (hy : y.isNaN = true) : ¬x < y := by
  change ¬decide (x.toModel.unpack.lt y.toModel.unpack = true) = true
  change y.toModel.unpack.isNaN = true at hy
  cases hv : y.toModel.unpack with
  | notANumber => cases x.toModel.unpack <;> exact Bool.false_ne_true
  | _ => rw [hv] at hy; cases hy

/-- A value that is not below a number is above it or equal to it, or no number itself. -/
theorem float_not_lt_iff (hy : y.isNaN = false) : ¬x < y ↔ x.isNaN = true ∨ y ≤ x := by
  cases hx : x.isNaN with
  | true => exact iff_of_true (float_not_lt_of_isNaN hx) (.inl rfl)
  | false =>
    rw [float_lt_iff hx hy, not_lt, ← float_le_iff hy hx]
    exact (or_iff_right Bool.false_ne_true).symm

/-- A number that is not below one is positive. -/
theorem pos_of_one_le (hnumber : x.isNaN = false) (hle : ¬x < 1.0) : 0.0 < x := by
  have hzero : (0.0 : Float).isNaN = false := rfl
  have hone : (1.0 : Float).isNaN = false := rfl
  rw [float_lt_iff hnumber hone, not_lt] at hle
  rw [float_lt_iff hzero hnumber]
  refine lt_of_lt_of_le ?_ hle
  exact (float_lt_iff hzero hone).1 (by decide +kernel)

end Float

end LteMac

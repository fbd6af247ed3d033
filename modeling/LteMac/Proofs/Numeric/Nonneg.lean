import LteMac.Proofs.Numeric.Exact

/-!
# Numbers that are not negative

A sum of numbers may fail to be a number, as that of the two infinities does. A sum of numbers with
a positive sign never does, and it has a positive sign itself, whatever is rounded or overflows on
the way. It does not even matter whether it is begun with the positive zero or the negative one.

It is the sign that is followed, not the size: a positive zero, a positive number and the positive
infinity are treated alike, so no bound on the numbers or on how many of them there are is needed.
The lemmas come in two layers, first for unpacked numbers, which arithmetic works on, and then for
numbers as they are written to bits.

* `FloatNonneg`: a number with a positive sign;
* `FloatNonneg.add`, `FloatNonneg.div_eight`, `floatNonneg_ofNat`: sums, eighths and natural numbers
  are such numbers;
* `FloatNonneg.neg_zero_add`: the zero that is added to does not matter.
-/

namespace LteMac

open Float.Model Float.Model.UnpackedFloat

/-- An unpacked number with a positive sign. -/
inductive UnpackedNonneg : UnpackedFloat → Prop
  /-- The positive zero. The negative one is left out, so a sum that begins with it needs care. -/
  | zero : UnpackedNonneg (.zero .positive)
  /-- A positive number. -/
  | finite (m : Nat) (e : ℤ) (h : 0 < m) : UnpackedNonneg (.finite .positive m e h)
  /-- The positive infinity. -/
  | infinity : UnpackedNonneg (.infinity .positive)

namespace UnpackedNonneg

variable {spec : Format} {u v : UnpackedFloat}

/-- What has a positive sign is a number. -/
theorem isNaN (h : UnpackedNonneg u) : u.isNaN = false := by
  cases h <;> rfl

/-- Rounding keeps the sign. -/
theorem roundWithAccuracy (m : Nat) (e : ℤ) (accuracy : Accuracy) :
    UnpackedNonneg (UnpackedFloat.roundWithAccuracy spec .positive m e accuracy) := by
  simp only [UnpackedFloat.roundWithAccuracy]
  split
  · exact .zero
  · exact .finite ..

/-- A natural number is normalised to one with a positive sign. -/
theorem normalize {i : ℤ} (h : 0 ≤ i) (e : ℤ) :
    UnpackedNonneg (UnpackedFloat.normalize spec i e .positive) := by
  simp only [UnpackedFloat.normalize]
  split
  next hlt => exact absurd (Int.compare_eq_lt.1 hlt) (Int.not_lt.2 h)
  next => exact .zero
  next => exact roundWithAccuracy ..

/-- A sum of two has a positive sign. -/
theorem add (hu : UnpackedNonneg u) (hv : UnpackedNonneg v) :
    UnpackedNonneg (UnpackedFloat.add spec u v) := by
  cases hu with
  | zero => cases hv <;> constructor
  | infinity => cases hv <;> constructor
  | finite m e hm =>
    cases hv with
    | zero => exact .finite m e hm
    | infinity => exact .infinity
    | finite n f hn =>
      exact normalize (Int.add_nonneg (Int.natCast_nonneg _) (Int.natCast_nonneg _)) _

/-- So has a product with a finite one. -/
theorem mul_finite (hu : UnpackedNonneg u) (m : Nat) (e : ℤ) (h : 0 < m) :
    UnpackedNonneg (UnpackedFloat.mul spec u (.finite .positive m e h)) := by
  cases hu with
  | zero => exact .zero
  | infinity => exact .infinity
  | finite => exact roundWithAccuracy ..

/-- So has a quotient by a finite one. -/
theorem div_finite (hu : UnpackedNonneg u) (m : Nat) (e : ℤ) (h : 0 < m) :
    UnpackedNonneg (UnpackedFloat.div spec u (.finite .positive m e h)) := by
  cases hu with
  | zero => exact .zero
  | infinity => exact .infinity
  | finite => exact roundWithAccuracy ..

/-- A literal without a sign has a positive one. -/
theorem ofScientific (m : Nat) (e : ℤ) :
    UnpackedNonneg (UnpackedFloat.ofScientific spec m e) := by
  simp only [UnpackedFloat.ofScientific]
  split_ifs
  · exact .zero
  · exact .infinity
  · exact .zero
  · exact (UnpackedNonneg.finite ..).mul_finite ..
  · exact (UnpackedNonneg.finite ..).div_finite ..

/-- Being written to bits keeps the sign, and makes an infinity of an overflow. -/
theorem viaBits (hu : UnpackedNonneg u) : UnpackedNonneg (LteMac.viaBits u) := by
  cases hu with
  | zero => exact .zero
  | infinity => exact .infinity
  | finite m e h =>
    -- A number has a positive sign if the bits have, and no exponent of the special values.
    have hcomponents : ∀ (field : BitVec 11) (fraction : BitVec 52), field ≠ -1#11 →
        UnpackedNonneg (UnpackedFloat.unpack Format.binary64
          (packComponents Format.binary64 .positive field fraction)) := by
      intro field fraction hfield
      simp only [UnpackedFloat.unpack, unpackExponent_packComponents, unpackSign_packComponents,
        ofBitVec_toBitVec, if_neg hfield]
      split
      · split <;> constructor
      · constructor
    simp only [LteMac.viaBits, UnpackedFloat.pack]
    split
    next => exact .infinity
    next hlt =>
      split
      · refine hcomponents _ _ fun hfield => ?_
        have hnat := congrArg BitVec.toNat hfield
        have hall : (-1#11).toNat = 2047 := rfl
        rw [BitVec.toNat_ofNat, hall] at hnat
        have hbound : ¬2 ^ 11 ≤ _ := hlt
        omega
      · exact hcomponents _ _ (by decide)

end UnpackedNonneg

/-- A number with a positive sign. -/
def FloatNonneg (x : Float) : Prop := UnpackedNonneg x.toModel.unpack

section

variable {x y : Float}

/-- What has a positive sign is a number. -/
theorem FloatNonneg.isNaN (h : FloatNonneg x) : x.isNaN = false := UnpackedNonneg.isNaN h

/-- The zero of the program. -/
theorem floatNonneg_zero : FloatNonneg 0.0 := UnpackedNonneg.zero

/-- Sums are such numbers. -/
theorem FloatNonneg.add (hx : FloatNonneg x) (hy : FloatNonneg y) : FloatNonneg (x + y) := by
  rw [FloatNonneg, unpack_add]
  exact (UnpackedNonneg.add hx hy).viaBits

/-- Eighths are such numbers. -/
theorem FloatNonneg.div_eight (hx : FloatNonneg x) : FloatNonneg (x / 8.0) := by
  rw [FloatNonneg, unpack_div, unpack_eight]
  exact (UnpackedNonneg.div_finite hx ..).viaBits

/-- A natural number, however large, is converted to a number with a positive sign. -/
theorem floatNonneg_ofNat (n : Nat) : FloatNonneg (Float.ofNat n) := by
  by_cases h : n < 2 ^ 53
  · have hword : FloatNonneg n.toUInt64.toFloat :=
      (UnpackedNonneg.normalize (Int.natCast_nonneg _) 0).viaBits
    rw [ofNat_eq_mul_floatOne h, FloatNonneg, unpack_mul, unpack_floatOne]
    exact (UnpackedNonneg.mul_finite hword ..).viaBits
  · change FloatNonneg (Float.ofScientific n false 0)
    rw [Float.ofScientific, dif_neg fun hfast => h hfast.1]
    exact (UnpackedNonneg.ofScientific n 0).viaBits

/-- The zero that is added to does not matter. -/
theorem FloatNonneg.neg_zero_add (hx : FloatNonneg x) : -0.0 + x = 0.0 + x := by
  have hsum : UnpackedFloat.add Format.binary64 (.zero .negative) x.toModel.unpack =
      UnpackedFloat.add Format.binary64 (.zero .positive) x.toModel.unpack := by
    change UnpackedNonneg x.toModel.unpack at hx
    generalize x.toModel.unpack = u at hx ⊢
    cases hx <;> rfl
  have hneg : (-0.0 : Float).toModel.unpack = .zero .negative := rfl
  have hzero : (0.0 : Float).toModel.unpack = .zero .positive := rfl
  change Float.ofModel (Float.Model.pack (UnpackedFloat.add Format.binary64
    (-0.0 : Float).toModel.unpack x.toModel.unpack)) = Float.ofModel (Float.Model.pack
      (UnpackedFloat.add Format.binary64 (0.0 : Float).toModel.unpack x.toModel.unpack))
  rw [hneg, hzero, hsum]

end

end LteMac

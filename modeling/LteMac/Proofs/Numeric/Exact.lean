import LteMac.Numeric.Binary64
import LteMac.Proofs.Numeric.Order
import Mathlib

/-!
# Exact arithmetic

The arithmetic of the floating-point numbers is that of the rational numbers, rounded to the 53 bits
of a mantissa. A result that fits into them is not rounded at all. So it is with the eighths of the
whole numbers below `2 ^ 53`.

The numbers of the platform are given by their bits, and each operation unpacks its arguments,
computes with a mantissa and an exponent of any size, rounds, and packs the result (`viaBits`). Two
things have to be shown for a result to be exact: that rounding changes nothing, which is so if no
bit of the mantissa falls behind the last place (`Fits`), and that packing loses nothing. Both are
about a mantissa followed by some zeros, because this is the form in which results arise: a
conversion from a whole number shifts it to the left, and a division by eight only lowers the
exponent.

* `Binary64.value`, `floatValue`: the rational number that a number stands for;
* `Binary64.ofFloat_eq`: the parts read off the bits are the ones that arithmetic works on;
* `viaBits`: what is written to bits and read back, as every result is;
* `Fits.roundWithAccuracy_eq`, `IsNormal.viaBits_eq`: what fits is neither rounded nor changed by
  that;
* `floatValue_eighth`: an eighth of a whole number has the value that it ought to have.
-/

namespace LteMac

open Float.Model Float.Model.UnpackedFloat

/-! ## Values

The same rational number has two ways to it: by the parts that are read off the bits of a number,
and by the unpacked number that arithmetic works on.
-/

namespace Binary64

/-- The value of a number; the special values count as zero. -/
def value : Binary64 → ℚ
  | finite negative mantissa exponent =>
    (if negative then -1 else 1) * mantissa * 2 ^ exponent
  | _ => 0

/-- The parts of an unpacked number. -/
def ofUnpacked : UnpackedFloat → Binary64
  | .notANumber => nan
  | .infinity s => infinite (s == .negative)
  | .zero s => finite (s == .negative) 0 minExponent
  | .finite s mantissa exponent _ => finite (s == .negative) mantissa exponent

section Fields

variable (b : BitVec 64)

/-- The mantissa of a number is in its lowest bits. -/
theorem toNat_unpackMantissa :
    (@unpackMantissa Format.binary64 b).toNat = b.toNat % 2 ^ 52 := by
  simp [unpackMantissa, BitVec.extractLsb_toNat]

/-- The exponent is above it. -/
theorem toNat_unpackExponent :
    (@unpackExponent Format.binary64 b).toNat = b.toNat / 2 ^ 52 % 2 ^ 11 := by
  simp [unpackExponent, BitVec.extractLsb_toNat, Nat.shiftRight_eq_div_pow]

/-- The sign is the highest bit. -/
theorem toNat_unpackSign :
    (@unpackSign Format.binary64 b).toNat = b.toNat / 2 ^ 63 := by
  have hlt : b.toNat < 2 ^ 64 := b.isLt
  have hbit : b.toNat / 2 ^ 63 < 2 := by omega
  simpa [unpackSign, BitVec.extractLsb_toNat, Nat.shiftRight_eq_div_pow] using hbit

end Fields

/-- The sign bit of a negative number is set. -/
theorem ofBitVec_eq_negative (b : BitVec 1) :
    (Sign.ofBitVec b == .negative) = (b.toNat == 1) := by
  revert b
  decide

/-- The leading bit of a mantissa, which is not written down. -/
theorem toNat_append_mantissa (m : BitVec 52) : (1#1 ++ m).toNat = m.toNat + 2 ^ 52 := by
  rw [BitVec.toNat_append, Nat.or_comm]
  exact Nat.or_two_pow_eq_add_of_lt m.isLt

/-- The parts read off the bits of a number are the ones that arithmetic works on. -/
theorem ofFloat_eq (x : Float) : ofFloat x = ofUnpacked x.toModel.unpack := by
  set bits := x.toModel.toBits
  set field := @unpackExponent Format.binary64 bits.toBitVec with hfield
  set fraction := @unpackMantissa Format.binary64 bits.toBitVec with hfraction
  have hnegative : (bits >>> 63 == 1) =
      (Sign.ofBitVec (@unpackSign Format.binary64 bits.toBitVec) == .negative) := by
    rw [ofBitVec_eq_negative, toNat_unpackSign, Bool.eq_iff_iff, beq_iff_eq, beq_iff_eq,
      ← UInt64.toNat_inj, UInt64.toNat_shiftRight, Nat.shiftRight_eq_div_pow]
    rfl
  have hexponent : ((bits >>> 52) &&& 0x7FF).toNat = field.toNat := by
    rw [hfield, toNat_unpackExponent, UInt64.toNat_and, UInt64.toNat_shiftRight,
      Nat.shiftRight_eq_div_pow]
    exact Nat.and_two_pow_sub_one_eq_mod _ 11
  have hmantissa : (bits &&& 0xFFFFFFFFFFFFF).toNat = fraction.toNat := by
    rw [hfraction, toNat_unpackMantissa, UInt64.toNat_and]
    exact Nat.and_two_pow_sub_one_eq_mod _ 52
  have hspecial : field = -1#11 ↔ field.toNat = 0x7FF := BitVec.toNat_inj.symm
  have hsmall : field = 0#11 ↔ field.toNat = 0 := BitVec.toNat_inj.symm
  have hempty : fraction = 0#52 ↔ fraction.toNat = 0 := BitVec.toNat_inj.symm
  change ofBits bits = ofUnpacked (UnpackedFloat.unpack Format.binary64 bits.toBitVec)
  -- Both sides look at the same three fields, and tell the same cases apart.
  simp only [ofBits, UnpackedFloat.unpack, hnegative, hexponent, hmantissa, ← hfield, ← hfraction,
    hspecial, hsmall, hempty, beq_iff_eq]
  split
  · split <;> rfl
  · split
    next hzero =>
      split
      next h => rw [h]; rfl
      next => simp [ofUnpacked, hzero, minExponent, Format.exponentBias]
    next =>
      rw [ofUnpacked, toNat_append_mantissa]
      congr 1
      simp only [minExponent, Format.exponentBias]
      omega

end Binary64

/-- The value of a number; the special values count as zero. -/
def floatValue (x : Float) : ℚ := (Binary64.ofFloat x).value

/-- The value of a number is that of its unpacked parts. -/
theorem floatValue_eq (x : Float) :
    floatValue x = (Binary64.ofUnpacked x.toModel.unpack).value :=
  congrArg Binary64.value (Binary64.ofFloat_eq x)

/-- Finite numbers in one place have one value. -/
theorem value_eq_of_place {u v : UnpackedFloat} (hu : u.isFinite = true) (hv : v.isFinite = true)
    (h : unpackedPlace u = unpackedPlace v) :
    (Binary64.ofUnpacked u).value = (Binary64.ofUnpacked v).value := by
  rcases u with _ | _ | _ | ⟨_ | _, m, e⟩ <;> rcases v with _ | _ | _ | ⟨_ | _, n, f⟩ <;>
    simp_all [unpackedPlace, Binary64.ofUnpacked, Binary64.value, UnpackedFloat.isFinite]

/-- The value of a finite number. -/
theorem Binary64.value_finite (s : Sign) (m : Nat) (e : ℤ) (h : 0 < m) :
    (ofUnpacked (.finite s m e h)).value = (s.apply m : ℤ) * 2 ^ e := by
  cases s with
  | negative =>
    change -1 * (m : ℚ) * 2 ^ e = ((-m : ℤ) : ℚ) * 2 ^ e
    rw [Int.cast_neg, Int.cast_natCast, neg_one_mul]
  | positive =>
    change 1 * (m : ℚ) * 2 ^ e = ((m : ℤ) : ℚ) * 2 ^ e
    rw [Int.cast_natCast, one_mul]

/-- A finite number is a number. -/
theorem isNaN_of_isFinite {x : Float} (h : x.isFinite = true) : x.isNaN = false := by
  change x.toModel.unpack.isFinite = true at h
  change x.toModel.unpack.isNaN = false
  cases hx : x.toModel.unpack with
  | notANumber => rw [hx] at h; cases h
  | _ => rfl

/-- Finite numbers that compare equal have one value. -/
theorem floatValue_eq_of_beq {x y : Float} (hx : x.isFinite = true) (hy : y.isFinite = true)
    (h : (x == y) = true) : floatValue x = floatValue y := by
  rw [floatValue_eq, floatValue_eq]
  exact value_eq_of_place hx hy
    ((float_beq_iff (isNaN_of_isFinite hx) (isNaN_of_isFinite hy)).1 h)

/-! ## Mantissas that have all their bits -/

/-- A mantissa with as many bits as there is room for. -/
structure IsNormal (m : Nat) : Prop where
  lower : 2 ^ 52 ≤ m
  upper : m < 2 ^ 53

/-- Zeros behind a number make it longer by as many bits. -/
theorem log2_mul_two_pow {m : Nat} (h : m ≠ 0) (k : Nat) : (m * 2 ^ k).log2 = m.log2 + k := by
  induction k with
  | zero => rw [Nat.pow_zero, Nat.mul_one]; rfl
  | succ k ih =>
    rw [Nat.pow_succ', Nat.mul_left_comm, Nat.log2_two_mul (by positivity), ih]
    rfl

/-- Zeros behind a mantissa are dropped without loss. -/
theorem shiftRight_exact (m k : Nat) :
    ExtendedMantissa.ofMantissaAndAccuracy (m * 2 ^ k) .exact >>> k =
      ExtendedMantissa.ofMantissaAndAccuracy m .exact := by
  induction k generalizing m with
  | zero => rw [Nat.pow_zero, Nat.mul_one]; rfl
  | succ k ih =>
    change ExtendedMantissa.shiftRightOne
      (ExtendedMantissa.ofMantissaAndAccuracy (m * 2 ^ (k + 1)) .exact >>> k) = _
    rw [Nat.pow_succ', ← Nat.mul_assoc, ih]
    simp [ExtendedMantissa.shiftRightOne, ExtendedMantissa.ofMantissaAndAccuracy]

namespace IsNormal

variable {m : Nat} (h : IsNormal m)

include h

theorem pos : 0 < m := Nat.lt_of_lt_of_le (by decide) h.lower

theorem log2_eq : m.log2 = 52 := (Nat.log2_eq_iff h.pos.ne').2 ⟨h.lower, h.upper⟩

end IsNormal

/-- A mantissa and an exponent as numbers have them: no bit of the mantissa is beyond the room for
it, and, unless the exponent is the least one, none of the room is empty. -/
structure Fits (m : Nat) (e : ℤ) : Prop where
  upper : m < 2 ^ 53
  least : -1074 ≤ e
  full : e = -1074 ∨ 2 ^ 52 ≤ m

/-- A mantissa with all its bits fits, whatever the exponent. -/
theorem IsNormal.fits {m : Nat} (h : IsNormal m) {e : ℤ} (he : -1074 ≤ e) : Fits m e :=
  ⟨h.upper, he, .inr h.lower⟩

namespace Fits

variable {m : Nat} {e : ℤ} (h : Fits m e) (hpos : 0 < m)

include h hpos

/-- The exponent of a number stays the same, however many zeros follow its mantissa. -/
theorem targetExponent_eq (k : Nat) :
    Format.binary64.targetExponent (totalExponent (m * 2 ^ k) (e - k)) = e := by
  have hlog : m.log2 ≤ 52 := Nat.lt_succ_iff.1 ((Nat.log2_lt hpos.ne').2 h.upper)
  simp only [Format.targetExponent, totalExponent, log2_mul_two_pow hpos.ne',
    Format.mantissaBits, Format.minExponent]
  rcases h.full with heq | hfull
  · omega
  · have hnormal : m.log2 = 52 := IsNormal.log2_eq ⟨hfull, h.upper⟩
    have hleast := h.least
    omega

/-- Shifting a number that fits drops zeros only. -/
theorem shiftToTargetExponent_eq (k : Nat) :
    shiftToTargetExponent Format.binary64 (m * 2 ^ k) (e - k) .exact =
      (ExtendedMantissa.ofMantissaAndAccuracy m .exact, e) := by
  have hk : (e - (e - k)).toNat = k := by omega
  rw [shiftToTargetExponent, h.targetExponent_eq hpos, shiftToExponent, hk, shiftRight_exact,
    Int.sub_add_cancel]

/-- A number that fits is not rounded. -/
theorem roundWithAccuracy_eq (s : Sign) (k : Nat) :
    roundWithAccuracy Format.binary64 s (m * 2 ^ k) (e - k) .exact = .finite s m e hpos := by
  have hagain : shiftToTargetExponent Format.binary64 m e .exact =
      (ExtendedMantissa.ofMantissaAndAccuracy m .exact, e) := by
    simpa using h.shiftToTargetExponent_eq hpos 0
  simp [roundWithAccuracy, h.shiftToTargetExponent_eq hpos, hagain, hpos.ne',
    ExtendedMantissa.ofMantissaAndAccuracy, ExtendedMantissa.roundedMantissa,
    ExtendedMantissa.accuracy, Accuracy.roundToNearestEven]

end Fits

/-- A whole number that fits is not rounded. -/
theorem round_of_isNormal (s : Sign) {n k : Nat} (h : IsNormal (n * 2 ^ k)) (hk : k ≤ 52) :
    UnpackedFloat.round Format.binary64 s n 0 = .finite s (n * 2 ^ k) (-k) h.pos := by
  have hn : n ≠ 0 := by
    rintro rfl
    exact absurd h.pos (by simp)
  have hlog : n.log2 + k = 52 := by rw [← log2_mul_two_pow hn, h.log2_eq]
  have htarget : Format.binary64.targetExponent (totalExponent n 0) = -(k : ℤ) := by
    simp only [Format.targetExponent, totalExponent, Format.mantissaBits, Format.minExponent]
    omega
  have hround := (h.fits (e := -k) (by omega)).roundWithAccuracy_eq h.pos s 0
  simpa [UnpackedFloat.round, htarget, decreaseExponent, Nat.shiftLeft_eq] using hround

/-! ## Numbers written to bits -/

/-- The sign is read back from the bits. -/
theorem unpackSign_packComponents (s : Sign) (field : BitVec 11) (fraction : BitVec 52) :
    unpackSign (packComponents Format.binary64 s field fraction) = s.toBitVec := by
  change (s.toBitVec ++ field ++ fraction).extractLsb' 63 1 = s.toBitVec
  rw [BitVec.extractLsb'_append_eq_of_le (by decide),
    BitVec.extractLsb'_append_eq_of_le (by decide)]
  cases s <;> rfl

/-- It is the sign that was written. -/
theorem ofBitVec_toBitVec (s : Sign) : Sign.ofBitVec s.toBitVec = s := by
  cases s <;> rfl

/-- An unpacked number that was written to bits and is read back. -/
def viaBits (u : UnpackedFloat) : UnpackedFloat :=
  UnpackedFloat.unpack Format.binary64 (UnpackedFloat.pack Format.binary64 u)

section Arithmetic

variable (x y : Float)

/-- A negation works on unpacked numbers. -/
theorem unpack_neg : (-x).toModel.unpack = viaBits x.toModel.unpack.neg := rfl

/-- So does an addition. -/
theorem unpack_add : (x + y).toModel.unpack =
    viaBits (UnpackedFloat.add Format.binary64 x.toModel.unpack y.toModel.unpack) := rfl

/-- So does a multiplication. -/
theorem unpack_mul : (x * y).toModel.unpack =
    viaBits (UnpackedFloat.mul Format.binary64 x.toModel.unpack y.toModel.unpack) := rfl

/-- So does a division. -/
theorem unpack_div : (x / y).toModel.unpack =
    viaBits (UnpackedFloat.div Format.binary64 x.toModel.unpack y.toModel.unpack) := rfl

/-- So does the conversion of a whole number. -/
theorem unpack_toFloat (n : UInt64) :
    n.toFloat.toModel.unpack = viaBits (UnpackedFloat.ofUInt64 Format.binary64 n) := rfl

/-- Eight is a power of two. -/
theorem unpack_eight :
    (8.0 : Float).toModel.unpack = .finite .positive (2 ^ 52) (-49) (by decide) := rfl

/-- The number one, by which a conversion multiplies. -/
def floatOne : Float := Float.ofBits 0x3FF0000000000000

/-- So is one. -/
theorem unpack_floatOne :
    floatOne.toModel.unpack = .finite .positive (2 ^ 52) (-52) (by decide) := rfl

/-- A natural number is converted as a number of 64 bits, times ten to the power of zero. -/
theorem ofNat_eq_mul_floatOne {n : Nat} (h : n < 2 ^ 53) :
    Float.ofNat n = n.toUInt64.toFloat * floatOne := by
  change Float.ofScientific n false 0 = _
  rw [Float.ofScientific, dif_pos ⟨h, Nat.zero_le _⟩]
  rfl

end Arithmetic

/-- A number with a normal mantissa is read back from its bits. -/
theorem IsNormal.viaBits_eq (s : Sign) {m : Nat} (h : IsNormal m) {e : ℤ} (he : -1074 ≤ e)
    (he' : e ≤ 971) : viaBits (.finite s m e h.pos) = .finite s m e h.pos := by
  -- The exponent is stored as a field of 11 bits, which is neither 0 nor full for a normal number.
  obtain ⟨field, hfield⟩ : ∃ field : Nat, (field : ℤ) = e + 1075 :=
    ⟨(e + 1075).toNat, by omega⟩
  have hpack : UnpackedFloat.pack Format.binary64 (.finite s m e h.pos) =
      packComponents Format.binary64 s (BitVec.ofNat 11 field) (BitVec.ofNat 52 m) := by
    have hbiased : (e + Format.binary64.exponentBias +
        Format.binary64.mantissaBitsWithoutImplicit).toNat = field := by
      simp only [Format.exponentBias]
      omega
    simp only [UnpackedFloat.pack, hbiased, h.log2_eq]
    rw [if_neg (by omega)]
    rfl
  have hexponent : (BitVec.ofNat 11 field).toNat = field := by
    rw [BitVec.toNat_ofNat]
    omega
  have hspecial : BitVec.ofNat 11 field ≠ -1#11 := by
    rw [ne_eq, ← BitVec.toNat_inj, hexponent]
    change field ≠ 2047
    omega
  have hsmall : BitVec.ofNat 11 field ≠ 0#11 := by
    rw [ne_eq, ← BitVec.toNat_inj, hexponent]
    change field ≠ 0
    omega
  have hmantissa : (1#1 ++ BitVec.ofNat 52 m).toNat = m := by
    have hlower := h.lower
    have hupper := h.upper
    rw [Binary64.toNat_append_mantissa, BitVec.toNat_ofNat]
    omega
  rw [viaBits, hpack]
  simp only [UnpackedFloat.unpack, unpackMantissa_packComponents, unpackExponent_packComponents,
    unpackSign_packComponents, ofBitVec_toBitVec, if_neg hspecial, if_neg hsmall, hexponent,
    hmantissa]
  congr 1
  simp only [Format.exponentBias]
  omega

/-! ## Eighths of whole numbers -/

/-- Below `2 ^ 53` a whole number can be shifted to a normal mantissa. -/
theorem exists_isNormal {n : Nat} (hpos : n ≠ 0) (hlt : n < 2 ^ 53) :
    ∃ k ≤ 52, IsNormal (n * 2 ^ k) := by
  have hlog : n.log2 ≤ 52 := Nat.lt_succ_iff.1 ((Nat.log2_lt hpos).2 hlt)
  have hnormal : (n * 2 ^ (52 - n.log2)).log2 = 52 := by
    rw [log2_mul_two_pow hpos]
    omega
  obtain ⟨hlower, hupper⟩ := (Nat.log2_eq_iff (by positivity)).1 hnormal
  exact ⟨52 - n.log2, Nat.sub_le .., hlower, hupper⟩

section Eighths

variable {m k n : Nat} {s : Sign} {e : ℤ} {x : Float}

/-- A whole number that fits is converted exactly. -/
theorem IsNormal.unpack_ofNat (h : IsNormal (n * 2 ^ k)) (hk : k ≤ 52) :
    (Float.ofNat n).toModel.unpack = .finite .positive (n * 2 ^ k) (-k) h.pos := by
  have hlt : n < 2 ^ 53 :=
    Nat.lt_of_le_of_lt (Nat.le_mul_of_pos_right n (Nat.two_pow_pos k)) h.upper
  have hpos : 0 < n := Nat.pos_of_mul_pos_right h.pos
  have hword : n.toUInt64.toNat = n := by
    rw [Nat.toUInt64, UInt64.toNat_ofNat']
    omega
  have hround : UnpackedFloat.ofUInt64 Format.binary64 n.toUInt64 =
      .finite .positive (n * 2 ^ k) (-k) h.pos := by
    have hcompare : compare (n : ℤ) 0 = .gt := Int.compare_eq_gt.2 (by omega)
    rw [UnpackedFloat.ofUInt64, UnpackedFloat.ofNat, UnpackedFloat.ofInt,
      UnpackedFloat.normalize, hword, hcompare]
    exact round_of_isNormal .positive h hk
  have hbits : viaBits (.finite .positive (n * 2 ^ k) (-k) h.pos) =
      .finite .positive (n * 2 ^ k) (-k) h.pos := h.viaBits_eq .positive (by omega) (by omega)
  rw [ofNat_eq_mul_floatOne hlt, unpack_mul, unpack_toFloat, hround, hbits, unpack_floatOne]
  change viaBits (roundWithAccuracy _ .positive (n * 2 ^ k * 2 ^ 52) (-k - (52 : Nat)) .exact) = _
  rw [(h.fits (by omega)).roundWithAccuracy_eq h.pos, hbits]

/-- A negation changes the sign only. -/
theorem IsNormal.unpack_neg_eq (h : IsNormal m) (he : -1074 ≤ e) (he' : e ≤ 971)
    (hx : x.toModel.unpack = .finite s m e h.pos) :
    (-x).toModel.unpack = .finite (-s) m e h.pos := by
  rw [unpack_neg, hx]
  exact h.viaBits_eq (-s) he he'

/-- An eighth of a number has the same mantissa. -/
theorem IsNormal.unpack_div_eight (h : IsNormal m) (he : -1070 ≤ e) (he' : e ≤ 971)
    (hx : x.toModel.unpack = .finite s m e h.pos) :
    (x / 8.0).toModel.unpack = .finite s m (e - 3) h.pos := by
  have hcore : divCore Format.binary64 m e (2 ^ 52) (-49) =
      (m * 2 ^ 1, e - 3 - (1 : Nat), .exact) := by
    have htarget : Format.binary64.targetExponent
        (totalExponent m e - totalExponent (2 ^ 52) (-49)) = e - 4 := by
      simp only [Format.targetExponent, totalExponent, h.log2_eq, Nat.log2_two_pow,
        Format.mantissaBits, Format.minExponent]
      omega
    -- The dividend is shifted beyond the zeros of the divisor, so nothing remains.
    have hmin : min (e - -49) (e - 4) = e - 4 := by omega
    have hshift : (e - -49 - (e - 4)).toNat = 53 := by omega
    have hdiv : m * 2 ^ 53 / 2 ^ 52 = m * 2 ^ 1 := by omega
    have hmod : m * 2 ^ 53 % 2 ^ 52 = 0 := by omega
    simp only [divCore, htarget, hmin, hshift, Nat.shiftLeft_eq, hdiv, hmod]
    refine congrArg₂ _ rfl (congrArg₂ _ ?_ rfl)
    omega
  have hdiv : UnpackedFloat.div Format.binary64 (.finite s m e h.pos)
      (.finite .positive (2 ^ 52) (-49) (by decide)) = .finite s m (e - 3) h.pos := by
    have hsign : s / .positive = s := by cases s <;> rfl
    simp only [UnpackedFloat.div, hcore, hsign]
    exact (h.fits (by omega)).roundWithAccuracy_eq h.pos s 1
  rw [unpack_div, hx, unpack_eight, hdiv]
  exact h.viaBits_eq s (by omega) (by omega)

end Eighths

/-- An eighth of a whole number that fits: its sign, a normal mantissa and an exponent. -/
theorem unpack_eighth {i : ℤ} (hne : i ≠ 0) (hlt : i.natAbs < 2 ^ 53) :
    ∃ (s : Sign) (k : Nat) (h : IsNormal (i.natAbs * 2 ^ k)), s.apply i.natAbs = i ∧
      (Float.ofInt i / 8.0).toModel.unpack = .finite s (i.natAbs * 2 ^ k) (-k - 3) h.pos := by
  obtain ⟨k, hk, h⟩ := exists_isNormal (Int.natAbs_ne_zero.2 hne) hlt
  cases i with
  | ofNat n =>
    exact ⟨.positive, k, h, rfl, h.unpack_div_eight (by omega) (by omega) (h.unpack_ofNat hk)⟩
  | negSucc n =>
    exact ⟨.negative, k, h, rfl, h.unpack_div_eight (by omega) (by omega)
      (h.unpack_neg_eq (by omega) (by omega) (h.unpack_ofNat hk))⟩

/-- An eighth of a whole number that fits is finite. -/
theorem isFinite_eighth {i : ℤ} (hlt : i.natAbs < 2 ^ 53) :
    (Float.ofInt i / 8.0).isFinite = true := by
  by_cases hne : i = 0
  · subst hne
    rfl
  · obtain ⟨s, k, h, -, hunpack⟩ := unpack_eighth hne hlt
    change (Float.ofInt i / 8.0).toModel.unpack.isFinite = true
    rw [hunpack]
    rfl

/-- An eighth of a whole number has the value that it ought to have. -/
theorem floatValue_eighth {i : ℤ} (hlt : i.natAbs < 2 ^ 53) :
    floatValue (Float.ofInt i / 8.0) = i / 8 := by
  by_cases hne : i = 0
  · subst hne
    have hzero : (Float.ofInt 0 / 8.0).toModel.unpack = .zero .positive := rfl
    simp [floatValue_eq, hzero, Binary64.ofUnpacked, Binary64.value]
  · obtain ⟨s, k, h, hsign, hunpack⟩ := unpack_eighth hne hlt
    have hpower : (2 : ℚ) ^ k * 2 ^ (-(k : ℤ) - 3) = 1 / 8 := by
      rw [← zpow_natCast, ← zpow_add₀ two_ne_zero, add_sub_assoc', add_neg_cancel]
      norm_num
    have hcast : ((s.apply (i.natAbs * 2 ^ k : Nat) : ℤ) : ℚ) = i * 2 ^ k := by
      rw [← hsign]
      cases s <;> simp [Sign.apply]
    rw [floatValue_eq, hunpack, Binary64.value_finite, hcast, mul_assoc, hpower, mul_one_div]

end LteMac

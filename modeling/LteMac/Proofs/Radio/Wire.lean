import LteMac.Radio.BufferStatus
import LteMac.Radio.Sinr
import LteMac.Proofs.Numeric.Eightfold

/-!
# The codes of uplink reports

A UE writes what it has to send and how well it is heard into codes, and the cell reads them back.
The two sides agree on every value: a buffer size is read as one that covers it, as far as the table
goes, and a measurement is read as itself, its fraction of an eighth of a decibel cut off, as far as
sixteen bits go. The code that is set apart stands for the missing measurement alone.

The code of a measurement is defined by its bits: the mantissa of the number is shifted to whole
eighths. That makes it easy to reason about, and is not how it is computed, which is in floating
point: multiplied by eight, held between two bounds and cast to sixteen bits. The two are equal for
every value (`Sinr.encode_eq_scaled`), also for infinities and for what is no number. The product by
eight is exact unless it is infinite; the bounds are whole numbers, so comparing before or after the
fraction is cut off comes to the same; and a cast cuts the fraction off.

* `BufferStatus.isLeast_index`, `BufferStatus.index_eq_of_lt`: the index of a buffer size;
* `Sinr.eighths_eq`: a measurement in eighths of a decibel, as a rational number;
* `Sinr.encode_eq_scaled`: the code of a measurement is what multiplying, holding between bounds and
  casting in floating point gives;
* `Sinr.encode_decode`, `Sinr.decode_encode`: the two directions of the code of a measurement;
* `uplink_codes_agree`: both codes.
-/

namespace LteMac

open Float.Model Float.Model.UnpackedFloat

/-! ## Buffer sizes -/

namespace BufferStatus

variable {bytes i : Nat}

/-- The size of an index is its entry in the table. -/
theorem size_eq_getElem (h : i < sizes.length) : size i = sizes[i] := by
  have hmod : i % 64 = i := Nat.mod_eq_of_lt h
  rw [size, hmod, List.getD_eq_getElem?_getD, List.getElem?_eq_getElem h, Option.getD_some]

/-- What the table reaches has the least index that covers it. -/
theorem isLeast_index (h : bytes ≤ 150000) :
    IsLeast {i | i < 64 ∧ bytes ≤ size i} (index bytes) := by
  cases hfind : sizes.findIdx? (bytes ≤ ·) with
  | none =>
    have hlast : decide (bytes ≤ 150000) = false :=
      List.findIdx?_eq_none_iff.1 hfind 150000 (by decide)
    exact absurd h (of_decide_eq_false hlast)
  | some i =>
    obtain ⟨hlt, hcover, hleast⟩ := List.findIdx?_eq_some_iff_getElem.1 hfind
    rw [index, hfind, Option.getD_some]
    refine ⟨⟨hlt, ?_⟩, fun j ⟨hj, hcovers⟩ => Nat.le_of_not_lt fun hji => ?_⟩
    · rw [size_eq_getElem hlt]
      exact of_decide_eq_true hcover
    · rw [size_eq_getElem hj] at hcovers
      exact hleast j hji (decide_eq_true hcovers)

/-- What the table does not reach has the last index. -/
theorem index_eq_of_lt (h : 150000 < bytes) : index bytes = 63 := by
  have hbound : ∀ size ∈ sizes, size ≤ 150000 := by decide
  have hfind : sizes.findIdx? (bytes ≤ ·) = none :=
    List.findIdx?_eq_none_iff.2 fun size hsize =>
      decide_eq_false (Nat.not_le.2 (Nat.lt_of_le_of_lt (hbound size hsize) h))
  rw [index, hfind, Option.getD_none]

/-- An index has six bits. -/
theorem index_lt (bytes : Nat) : index bytes < 64 := by
  by_cases h : bytes ≤ 150000
  · exact (isLeast_index h).1.1
  · rw [index_eq_of_lt (Nat.lt_of_not_le h)]
    decide

/-- More bytes have a higher index. -/
theorem monotone_index : Monotone index := by
  intro a b hab
  by_cases h : b ≤ 150000
  · obtain ⟨hlt, hcover⟩ := (isLeast_index h).1
    exact (isLeast_index (hab.trans h)).2 ⟨hlt, hab.trans hcover⟩
  · rw [index_eq_of_lt (Nat.lt_of_not_le h)]
    exact Nat.le_of_lt_succ (index_lt a)

/-- The size that an index is read as covers what was reported, as far as the table goes. -/
theorem min_le_size_index (bytes : Nat) : min bytes 150000 ≤ size (index bytes) := by
  by_cases h : bytes ≤ 150000
  · exact (Nat.min_le_left ..).trans (isLeast_index h).1.2
  · rw [index_eq_of_lt (Nat.lt_of_not_le h)]
    exact Nat.min_le_right ..

end BufferStatus

/-! ## Cutting off a fraction -/

/-- A number without its fraction. -/
def truncate (q : ℚ) : ℤ := if 0 ≤ q then ⌊q⌋ else ⌈q⌉

/-- Above zero a fraction is cut off downwards. -/
theorem truncate_of_nonneg {q : ℚ} (h : 0 ≤ q) : truncate q = ⌊q⌋ := if_pos h

/-- Below zero it is cut off upwards. -/
theorem truncate_neg_of_nonneg {q : ℚ} (h : 0 ≤ q) : truncate (-q) = -⌊q⌋ := by
  rw [truncate]
  split
  next hneg =>
    have hzero : q = 0 := le_antisymm (neg_nonneg.1 hneg) h
    rw [hzero, neg_zero, Int.floor_zero, neg_zero]
  next => exact Int.ceil_neg

/-- A whole number has no fraction to cut off. -/
theorem truncate_intCast (i : ℤ) : truncate i = i := by
  rw [truncate, Int.floor_intCast, Int.ceil_intCast, ite_self]

/-- To cut off fractions keeps the order. -/
theorem truncate_mono : Monotone truncate := by
  intro p q h
  rcases le_or_gt 0 p with hp | hp
  · rw [truncate_of_nonneg hp, truncate_of_nonneg (hp.trans h)]
    exact Int.floor_mono h
  · have hceil : truncate p = ⌈p⌉ := if_neg (not_le.2 hp)
    rw [hceil]
    rcases le_or_gt 0 q with hq | hq
    · rw [truncate_of_nonneg hq]
      exact (Int.ceil_le.2 (by exact_mod_cast hp.le)).trans (Int.floor_nonneg.2 hq)
    · have hceil' : truncate q = ⌈q⌉ := if_neg (not_le.2 hq)
      rw [hceil']
      exact Int.ceil_mono h

/-- Shifting a mantissa cuts off the fraction. -/
theorem Binary64.coe_shifted (m : Nat) (e : ℤ) :
    (Binary64.shifted m e : ℤ) = ⌊(m : ℚ) * 2 ^ e⌋ := by
  cases e with
  | ofNat n =>
    have hcast : (m : ℚ) * 2 ^ (Int.ofNat n) = (m * 2 ^ n : Nat) := by
      rw [Nat.cast_mul, Nat.cast_pow, Int.ofNat_eq_natCast, zpow_natCast, Nat.cast_ofNat]
    rw [hcast, Int.floor_natCast, Binary64.shifted, Nat.shiftLeft_eq]
  | negSucc n =>
    have hcast : (m : ℚ) * 2 ^ (Int.negSucc n) = (m : ℚ) / (2 ^ (n + 1) : Nat) := by
      rw [zpow_negSucc, Nat.cast_pow, Nat.cast_ofNat, div_eq_mul_inv]
    rw [hcast, Rat.floor_natCast_div_natCast, Binary64.shifted, Nat.shiftRight_eq_div_pow,
      Int.natCast_ediv]

/-- Shifting out bits of a mantissa divides it. -/
theorem mantissa_shiftRight (m k : Nat) :
    (ExtendedMantissa.ofMantissaAndAccuracy m .exact >>> k).mantissa = m / 2 ^ k := by
  induction k with
  | zero => rw [Nat.pow_zero, Nat.div_one]; rfl
  | succ k ih =>
    change (ExtendedMantissa.ofMantissaAndAccuracy m .exact >>> k).mantissa / 2 = _
    rw [ih, Nat.div_div_eq_div_mul, Nat.pow_succ]

/-- A conversion to a whole number shifts the mantissa. -/
theorem roundToInt_eq (s : Sign) (m : Nat) (e : ℤ) :
    roundToInt s m e = s.apply (Binary64.shifted m e) := by
  cases e with
  | ofNat n =>
    have hn : (Int.ofNat n - 0).toNat = n := by simp
    have hzero : Int.ofNat n - (n : ℤ) = 0 := sub_self _
    simp only [roundToInt, decreaseExponent, shiftToExponent, hn, hzero, mantissa_shiftRight]
    simp [Binary64.shifted]
  | negSucc n =>
    have hn : (Int.negSucc n - 0).toNat = 0 := by simp
    have hshift : (0 - (Int.negSucc n - ((0 : Nat) : ℤ))).toNat = n + 1 := by simp
    simp only [roundToInt, decreaseExponent, shiftToExponent, hn, hshift, mantissa_shiftRight]
    simp [Binary64.shifted, Nat.shiftRight_eq_div_pow]

/-- A conversion to a whole number cuts off the fraction. -/
theorem roundToInt_eq_truncate (s : Sign) (m : Nat) (e : ℤ) :
    roundToInt s m e = truncate ((s.apply m : ℤ) * 2 ^ e) := by
  have hnonneg : 0 ≤ (m : ℚ) * 2 ^ e := by positivity
  rw [roundToInt_eq, Binary64.coe_shifted]
  cases s with
  | negative =>
    rw [Sign.apply, Sign.apply, Int.cast_neg, Int.cast_natCast, neg_mul,
      truncate_neg_of_nonneg hnonneg]
  | positive =>
    rw [Sign.apply, Sign.apply, Int.cast_natCast, truncate_of_nonneg hnonneg]

/-- A finite number is cast to sixteen bits by cutting off its fraction, if it is in their range. -/
theorem toInt_toInt16 {x : Float} (hx : x.isFinite = true)
    (hlow : -32767 ≤ truncate (floatValue x)) (hhigh : truncate (floatValue x) ≤ 32767) :
    x.toModel.toInt16.toInt = truncate (floatValue x) := by
  change x.toModel.unpack.isFinite = true at hx
  have hcast : x.toModel.unpack.toInt Int16.minValue.toInt Int16.maxValue.toInt =
      truncate (floatValue x) := by
    cases hu : x.toModel.unpack with
    | notANumber | infinity => rw [hu] at hx; cases hx
    | zero s =>
      have hzero : floatValue x = (0 : ℤ) := by
        simp [floatValue_eq, hu, Binary64.ofUnpacked, Binary64.value]
      rw [hzero, truncate_intCast]
      rfl
    | finite s m e hpos =>
      rw [floatValue_of_unpack hu, ← roundToInt_eq_truncate]
      rfl
  change (Int16.ofIntClamp (x.toModel.unpack.toInt _ _)).toInt = _
  rw [hcast]
  exact Int16.toInt_ofIntClamp (hlow.trans' (by decide)) (hhigh.trans (by decide))

/-! ## Measurements

A code is read by dividing a signed number of sixteen bits by eight, which is exact. It is written
by the inverse, up to the fraction and to the range.
-/

namespace Sinr

variable {code : UInt16} {v : Float}

/-- Eighths are within the range of sixteen bits, symmetrically. -/
theorem eighths_natAbs_le (v : Float) : (eighths v).natAbs ≤ 32767 := by
  simp only [eighths, saturation]
  split
  · decide
  · split <;> decide
  · split <;> omega

/-- A finite value in eighths of a decibel, its fraction cut off, saturates on both sides. -/
theorem eighths_eq (h : v.isFinite = true) :
    eighths v = max (-32767) (min 32767 (truncate (8 * floatValue v))) := by
  obtain ⟨negative, m, e, hv⟩ : ∃ negative m e, Binary64.ofFloat v = .finite negative m e := by
    rw [Binary64.ofFloat_eq]
    change v.toModel.unpack.isFinite = true at h
    cases hunpack : v.toModel.unpack with
    | notANumber | infinity s => rw [hunpack] at h; cases h
    | zero s | finite s m e => exact ⟨_, _, _, rfl⟩
  have hscale : (m : ℚ) * 2 ^ (e + 3) = 8 * (m * 2 ^ e) := by
    rw [zpow_add₀ two_ne_zero]
    ring
  have hnonneg : 0 ≤ (m : ℚ) * 2 ^ (e + 3) :=
    mul_nonneg (Nat.cast_nonneg m) (zpow_nonneg zero_le_two _)
  -- The magnitude is cut off and bounded before it gets its sign.
  have hshifted := Binary64.coe_shifted m (e + 3)
  rw [eighths, floatValue, hv]
  cases negative with
  | false =>
    have hvalue : 8 * (Binary64.finite false m e).value = (m : ℚ) * 2 ^ (e + 3) := by
      simp [Binary64.value, hscale]
    simp only [hvalue, truncate_of_nonneg hnonneg, ← hshifted, saturation, Bool.false_eq_true,
      if_false]
    omega
  | true =>
    have hvalue : 8 * (Binary64.finite true m e).value = -((m : ℚ) * 2 ^ (e + 3)) := by
      simp [Binary64.value, hscale]
    simp only [hvalue, truncate_neg_of_nonneg hnonneg, ← hshifted, saturation, if_true]
    omega

/-- A number between two bounds; what is not a number stays as it is. -/
def clamp (x low high : Float) : Float :=
  if x < low then low else if high < x then high else x

/-- A value in eighths of a decibel the way it is computed: multiplied by eight and held between
the bounds, all in floating point, before it is cast to sixteen bits. -/
def scaled (v : Float) : Float := clamp (v * 8.0) (-32767.0) 32767.0

/-- What is infinitely far below is held at the lower bound. -/
theorem scaled_of_below (h : (v * 8.0).toModel.unpack = .infinity .negative) :
    scaled v = -32767.0 := by
  refine if_pos ?_
  change decide ((v * 8.0).toModel.unpack.lt (-32767.0 : Float).toModel.unpack = true) = true
  rw [h]
  decide +kernel

/-- What is infinitely far above is held at the upper one. -/
theorem scaled_of_above (h : (v * 8.0).toModel.unpack = .infinity .positive) :
    scaled v = 32767.0 := by
  have hlow : ¬v * 8.0 < -32767.0 := by
    change ¬decide ((v * 8.0).toModel.unpack.lt (-32767.0 : Float).toModel.unpack = true) = true
    rw [h]
    decide +kernel
  refine (if_neg hlow).trans (if_pos ?_)
  change decide ((32767.0 : Float).toModel.unpack.lt (v * 8.0).toModel.unpack = true) = true
  rw [h]
  decide +kernel

/-- What is not a number compares with no bound. -/
theorem scaled_of_isNaN (h : (v * 8.0).isNaN = true) : scaled v = v * 8.0 :=
  (if_neg (float_not_lt_of_isNaN h)).trans (if_neg (float_not_lt_isNaN h))

/-- The lower bound is cast to itself. -/
theorem toInt_low : (-32767.0 : Float).toModel.toInt16.toInt = -32767 := by decide +kernel

/-- So is the upper one. -/
theorem toInt_high : (32767.0 : Float).toModel.toInt16.toInt = 32767 := by decide +kernel

/-- A finite value that is multiplied, held between bounds and cast comes out in whole eighths. The
bounds are compared with the exact product, and since cutting off fractions keeps the order, it does
not matter whether that is done before the comparisons or after them. -/
theorem toInt16_scaled_of_isFinite (h : v.isFinite = true) :
    (scaled v).toModel.toInt16.toInt = eighths v := by
  rw [eighths_eq h]
  have hlow : (-32767.0 : Float).isFinite = true ∧ floatValue (-32767.0) = (-32767 : ℤ) := by
    decide +kernel
  have hhigh : (32767.0 : Float).isFinite = true ∧ floatValue 32767.0 = (32767 : ℤ) := by
    decide +kernel
  -- A bound that a value is beyond is reached by its whole part.
  have hbelow : 8 * floatValue v ≤ (-32767 : ℤ) → truncate (8 * floatValue v) ≤ -32767 :=
    fun hle => (truncate_mono hle).trans_eq (truncate_intCast _)
  have habove : ((32767 : ℤ) : ℚ) ≤ 8 * floatValue v → 32767 ≤ truncate (8 * floatValue v) :=
    fun hle => (truncate_intCast 32767).symm.trans_le (truncate_mono hle)
  have hbound : (32767 : ℚ) ≤ 2 ^ 1024 :=
    (by norm_num : (32767 : ℚ) ≤ 2 ^ 15).trans (pow_le_pow_right₀ one_le_two (by decide))
  cases mul_eight_cases h with
  | below hunpack hvalue =>
    have hreached := hbelow (hvalue.trans (by push_cast; exact neg_le_neg hbound))
    rw [scaled_of_below hunpack, toInt_low]
    omega
  | above hunpack hvalue =>
    have hreached := habove (hvalue.trans' (by push_cast; exact hbound))
    rw [scaled_of_above hunpack, toInt_high]
    omega
  | exact hfinite hvalue =>
    rw [scaled, clamp]
    split
    next hlt =>
      rw [float_lt_iff_floatValue hfinite hlow.1, hvalue, hlow.2] at hlt
      have hreached := hbelow hlt.le
      rw [toInt_low]
      omega
    next hge =>
      rw [float_lt_iff_floatValue hfinite hlow.1, hvalue, hlow.2, not_lt] at hge
      split
      next hlt =>
        rw [float_lt_iff_floatValue hhigh.1 hfinite, hvalue, hhigh.2] at hlt
        have hreached := habove hlt.le
        rw [toInt_high]
        omega
      next hle =>
        rw [float_lt_iff_floatValue hhigh.1 hfinite, hvalue, hhigh.2, not_lt] at hle
        have hge' := (truncate_intCast (-32767)).symm.trans_le (truncate_mono hge)
        have hle' := (truncate_mono hle).trans_eq (truncate_intCast 32767)
        rw [toInt_toInt16 hfinite (hvalue ▸ hge') (hvalue ▸ hle'), hvalue]
        omega

/-- To multiply, to hold between bounds and to cast comes to reading the eighths off the bits, also
where a value is infinite or no number. -/
theorem toInt16_scaled (v : Float) : (scaled v).toModel.toInt16.toInt = eighths v := by
  cases hu : v.toModel.unpack with
  | notANumber =>
    have hproduct : (v * 8.0).toModel.unpack = .notANumber := by
      rw [unpack_mul, hu]
      rfl
    have hnone : (v * 8.0).isNaN = true := by
      change (v * 8.0).toModel.unpack.isNaN = true
      rw [hproduct]
      rfl
    rw [scaled_of_isNaN hnone, eighths, Binary64.ofFloat_eq, hu]
    change (v * 8.0).toModel.unpack.toInt16.toInt = 0
    rw [hproduct]
    rfl
  | infinity s =>
    have hproduct : (v * 8.0).toModel.unpack = .infinity s := by
      rw [unpack_mul, hu, unpack_eight]
      cases s <;> rfl
    rw [eighths, Binary64.ofFloat_eq, hu]
    cases s with
    | negative => rw [scaled_of_below hproduct, toInt_low]; rfl
    | positive => rw [scaled_of_above hproduct, toInt_high]; rfl
  -- Only for finite numbers is there anything to compute.
  | zero | finite =>
    refine toInt16_scaled_of_isFinite ?_
    change v.toModel.unpack.isFinite = true
    rw [hu]
    rfl

/-- The code of a value is what the computation in floating point gives. -/
theorem encode_eq_scaled (v : Float) :
    encode v = if v == unmeasured then unmeasuredCode
      else (scaled v).toModel.toInt16.toUInt16 := by
  rw [encode, ← toInt16_scaled, Int16.ofInt_toInt]

/-- Any other code is read as a number of eighths. -/
theorem decode_of_ne (h : code ≠ unmeasuredCode) :
    decode code = Float.ofInt code.toInt16.toInt / 8.0 := if_neg h

/-- Any other value is written as a number of eighths. -/
theorem encode_of_ne (h : (v != unmeasured) = true) :
    encode v = (Int16.ofInt (eighths v)).toUInt16 :=
  if_neg fun heq => by simp [bne, heq] at h

/-- The code of a measurement, read as a signed number. -/
theorem toInt_encode (h : (v != unmeasured) = true) : (encode v).toInt16.toInt = eighths v := by
  have hbound := eighths_natAbs_le v
  rw [encode_of_ne h, Int16.toInt16_toUInt16, Int16.toInt_ofInt_of_le (by omega) (by omega)]

/-- A measurement never has the code that is set apart. -/
theorem encode_ne (h : (v != unmeasured) = true) : encode v ≠ unmeasuredCode := by
  intro heq
  have hreserved : unmeasuredCode.toInt16.toInt = -32768 := rfl
  have hbound := eighths_natAbs_le v
  have hcode := toInt_encode h
  rw [heq, hreserved] at hcode
  omega

/-- A code stands for as many eighths as it has. -/
theorem floatValue_decode (h : code ≠ unmeasuredCode) :
    (decode code).isFinite = true ∧ floatValue (decode code) = code.toInt16.toInt / 8 := by
  have hlower := code.toInt16.le_toInt
  have hupper := code.toInt16.toInt_lt
  rw [decode_of_ne h]
  exact ⟨isFinite_eighth (by omega), floatValue_eighth (by omega)⟩

/-- No code of a measurement is read as the missing one. -/
theorem decode_bne (h : code ≠ unmeasuredCode) : (decode code != unmeasured) = true := by
  obtain ⟨hfinite, hvalue⟩ := floatValue_decode h
  rw [bne, Bool.not_eq_true']
  by_contra hbeq
  rw [Bool.not_eq_false] at hbeq
  have hmissing : floatValue unmeasured = -5000 := by decide +kernel
  have heq := floatValue_eq_of_beq hfinite rfl hbeq
  rw [hvalue, hmissing, div_eq_iff (by norm_num)] at heq
  -- What stands for a missing measurement lies below all that sixteen bits can say.
  have hint : code.toInt16.toInt = -5000 * 8 := by exact_mod_cast heq
  have hlower := code.toInt16.le_toInt
  omega

/-- Every code is read back as itself. -/
theorem encode_decode (code : UInt16) : encode (decode code) = code := by
  by_cases h : code = unmeasuredCode
  · subst h
    rfl
  · obtain ⟨hfinite, hvalue⟩ := floatValue_decode h
    have hlower := code.toInt16.le_toInt
    have hupper := code.toInt16.toInt_lt
    have hne : code.toInt16.toInt ≠ -32768 := fun heq => h <| by
      have hcode : code.toInt16 = unmeasuredCode.toInt16 := Int16.toInt_inj.1 heq
      rw [← code.toUInt16_toInt16, hcode, UInt16.toUInt16_toInt16]
    have hscale : 8 * floatValue (decode code) = code.toInt16.toInt := by
      rw [hvalue]
      ring
    have height : eighths (decode code) = code.toInt16.toInt := by
      rw [eighths_eq hfinite, hscale, truncate_intCast]
      omega
    rw [encode_of_ne (decode_bne h), height, Int16.ofInt_toInt, UInt16.toUInt16_toInt16]

/-- A finite measurement is read back with its fraction of an eighth cut off and its magnitude
saturated. -/
theorem decode_encode (hfinite : v.isFinite = true) (h : (v != unmeasured) = true) :
    (decode (encode v)).isFinite = true ∧
      floatValue (decode (encode v)) =
        max (-4095.875) (min 4095.875 ((truncate (8 * floatValue v) : ℚ) / 8)) := by
  obtain ⟨hfinite', hvalue⟩ := floatValue_decode (encode_ne h)
  refine ⟨hfinite', ?_⟩
  have hbound : (4095.875 : ℚ) = 32767 / 8 := by norm_num
  rw [hvalue, toInt_encode h, eighths_eq hfinite, hbound, ← neg_div,
    min_div_div_right (by norm_num), max_div_div_right (by norm_num)]
  push_cast
  rfl

end Sinr

/-! ## Both codes -/

/-- A buffer size has the least index whose size covers it, or the last one if none does: the index
grows with the buffer size and is read as a size that covers it as far as the table goes. Every code
of a measurement is read back as itself. No measurement has the code that is set apart, and a finite
one is read back with its fraction of an eighth of a decibel cut off and its magnitude saturated. -/
theorem uplink_codes_agree :
    (∀ bytes, (bytes ≤ 150000 →
        IsLeast {i | i < 64 ∧ bytes ≤ BufferStatus.size i} (BufferStatus.index bytes)) ∧
      (150000 < bytes → BufferStatus.index bytes = 63) ∧
      min bytes 150000 ≤ BufferStatus.size (BufferStatus.index bytes)) ∧
    Monotone BufferStatus.index ∧
    (∀ code, Sinr.encode (Sinr.decode code) = code) ∧
    ∀ v : Float, v.isFinite = true → (v != Sinr.unmeasured) = true →
      Sinr.encode v ≠ Sinr.unmeasuredCode ∧
      (Sinr.decode (Sinr.encode v)).isFinite = true ∧
      floatValue (Sinr.decode (Sinr.encode v)) =
        max (-4095.875) (min 4095.875 ((truncate (8 * floatValue v) : ℚ) / 8)) :=
  ⟨fun _ => ⟨BufferStatus.isLeast_index, BufferStatus.index_eq_of_lt,
      BufferStatus.min_le_size_index _⟩,
    BufferStatus.monotone_index, Sinr.encode_decode,
    fun _ hfinite h => ⟨Sinr.encode_ne h, Sinr.decode_encode hfinite h⟩⟩

/-- The largest buffer size of the table, the next one, and a measurement far below the lowest code,
which is not mistaken for the missing one. -/
theorem uplink_codes_agree_outermost :
    IsLeast {i | i < 64 ∧ 150000 ≤ BufferStatus.size i} (BufferStatus.index 150000) ∧
      BufferStatus.index 150001 = 63 ∧
      Sinr.encode (-9000.0) ≠ Sinr.unmeasuredCode ∧
      floatValue (Sinr.decode (Sinr.encode (-9000.0))) = -4095.875 := by
  obtain ⟨hindex, -, -, hcode⟩ := uplink_codes_agree
  obtain ⟨hne, -, hvalue⟩ := hcode (-9000.0) (by decide +kernel) (by decide +kernel)
  have height : truncate (8 * floatValue (-9000.0)) = -72000 := by decide +kernel
  rw [height] at hvalue
  exact ⟨(hindex 150000).1 le_rfl, (hindex 150001).2.1 (by decide), hne, hvalue.trans (by norm_num)⟩

end LteMac

import LteMac.Proofs.Numeric.Exact

/-!
# Eight times a number

A multiplication by eight moves the exponent of a number and leaves its mantissa alone, so nothing
is rounded. Two things stand against this, one at each end of the range. Below the normal numbers
the exponent is stuck at the least one, and it is the mantissa that grows, until it has all its
bits: no bit gets lost on the way. Above the largest exponent there is no number any more, and the
product is infinite.

What a program then does with the product, comparing it with bounds and cutting off its fraction,
can be said of the rational number that it stands for, because finite numbers are in the order of
their values.

* `fits_of_unpack`: the parts of every finite number fit;
* `Fits.viaBits_eq`, `Fits.viaBits_of_lt`: what fits is read back from its bits, or is infinite if
  its exponent is too large;
* `float_lt_iff_floatValue`: the order of finite numbers is that of their values;
* `mul_eight_cases`: eight times a finite number is exact, or beyond every number.
-/

namespace LteMac

open Float.Model Float.Model.UnpackedFloat

/-! ## The parts of a number -/

variable {m n : Nat} {e e' : ℤ} {s : Sign} {x y : Float}

/-- The parts of a finite number fit, and its exponent is not beyond the largest one. -/
theorem fits_of_unpack {hpos : 0 < m} (hx : x.toModel.unpack = .finite s m e hpos) :
    Fits m e ∧ e ≤ 971 := by
  change UnpackedFloat.unpack Format.binary64 x.toModel.toBits.toBitVec = _ at hx
  have hfraction := (@unpackMantissa Format.binary64 x.toModel.toBits.toBitVec).isLt
  have hfield := (@unpackExponent Format.binary64 x.toModel.toBits.toBitVec).isLt
  simp only [UnpackedFloat.unpack] at hx
  split at hx
  next => split at hx <;> cases hx
  next hspecial =>
    have htop : (@unpackExponent Format.binary64 x.toModel.toBits.toBitVec).toNat ≠ 2047 :=
      fun heq => hspecial (BitVec.eq_of_toNat_eq heq)
    split at hx
    next hzero =>
      split at hx
      next => cases hx
      next =>
        -- The exponent field is empty: a subnormal number, with the least exponent.
        cases hx
        rw [hzero]
        exact ⟨⟨hfraction.trans (by decide), by decide, .inl (by decide)⟩, by decide⟩
    next hzero =>
      have hbottom : (@unpackExponent Format.binary64 x.toModel.toBits.toBitVec).toNat ≠ 0 :=
        fun heq => hzero (BitVec.eq_of_toNat_eq heq)
      cases hx
      rw [Binary64.toNat_append_mantissa]
      change (@unpackMantissa Format.binary64 x.toModel.toBits.toBitVec).toNat < 2 ^ 52
        at hfraction
      change (@unpackExponent Format.binary64 x.toModel.toBits.toBitVec).toNat < 2 ^ 11 at hfield
      simp only [Format.exponentBias]
      exact ⟨⟨by omega, by omega, .inr (by omega)⟩, by omega⟩

namespace Fits

variable (h : Fits m e) (hpos : 0 < m)

include h

/-- A number that fits is read back from its bits. -/
theorem viaBits_eq (he : e ≤ 971) :
    viaBits (.finite s m e hpos) = .finite s m e hpos := by
  by_cases hnormal : 2 ^ 52 ≤ m
  · exact IsNormal.viaBits_eq s ⟨hnormal, h.upper⟩ h.least he
  · obtain rfl := h.full.resolve_right hnormal
    have hlt : m < 2 ^ 52 := Nat.lt_of_not_le hnormal
    have hlog : m.log2 + 1 ≠ 53 := by
      have := (Nat.log2_lt hpos.ne').2 hlt
      omega
    have hpack : UnpackedFloat.pack Format.binary64 (.finite s m (-1074) hpos) =
        packComponents Format.binary64 s 0#11 (BitVec.ofNat 52 m) := by
      simp only [UnpackedFloat.pack]
      rw [if_neg (by decide)]
      exact if_neg hlog
    have hfraction : (BitVec.ofNat 52 m).toNat = m := by
      rw [BitVec.toNat_ofNat, Nat.mod_eq_of_lt hlt]
    have hsome : BitVec.ofNat 52 m ≠ 0#52 := by
      rw [ne_eq, ← BitVec.toNat_inj, hfraction]
      exact hpos.ne'
    rw [viaBits, hpack]
    simp only [UnpackedFloat.unpack, unpackMantissa_packComponents,
      unpackExponent_packComponents, unpackSign_packComponents, ofBitVec_toBitVec, hfraction]
    rw [if_neg (by decide), if_pos trivial, dif_neg hsome]
    rfl

omit h in
/-- Beyond the largest exponent there is no number. -/
theorem viaBits_of_lt (he : 971 < e) : viaBits (.finite s m e hpos) = .infinity s := by
  have hpack : UnpackedFloat.pack Format.binary64 (.finite s m e hpos) =
      packedInfinity Format.binary64 s := by
    simp only [UnpackedFloat.pack, Format.exponentBias]
    exact if_pos (by omega)
  rw [viaBits, hpack]
  cases s <;> rfl

/-- Eight times what fits, with another mantissa if there is room in it. -/
theorem exists_eightfold : ∃ k : Nat, k ≤ 3 ∧ Fits (m * 2 ^ k) (e + 3 - k) := by
  obtain ⟨hupper, hleast, hfull⟩ := h
  by_cases hnormal : 2 ^ 52 ≤ m
  · exact ⟨0, by omega, by omega, by omega, .inr (by omega)⟩
  · obtain rfl := hfull.resolve_right hnormal
    by_cases hthree : m * 2 ^ 3 < 2 ^ 53
    · exact ⟨3, by omega, hthree, by omega, .inl (by omega)⟩
    · by_cases htwo : m * 2 ^ 2 < 2 ^ 53
      · exact ⟨2, by omega, htwo, by omega, .inr (by omega)⟩
      · exact ⟨1, by omega, by omega, by omega, .inr (by omega)⟩

end Fits

/-! ## The order of values -/

/-- The value of a finite number by its parts. -/
theorem floatValue_of_unpack {hpos : 0 < m} (hx : x.toModel.unpack = .finite s m e hpos) :
    floatValue x = (s.apply m : ℤ) * 2 ^ e := by
  rw [floatValue_eq, hx, Binary64.value_finite]

/-- What fits with a larger exponent is beyond every number. Its mantissa has all its bits, since
with room in it the exponent would be the least one. -/
theorem Fits.le_mul_zpow (h : Fits m e) (he : 971 < e) : (2 : ℚ) ^ 1024 ≤ m * 2 ^ e := by
  have hfull : 2 ^ 52 ≤ m := h.full.resolve_left fun heq => by omega
  calc (2 : ℚ) ^ 1024 = (2 ^ 52 : ℚ) * 2 ^ (972 : ℤ) := by
        rw [← zpow_natCast, ← zpow_natCast, ← zpow_add₀ two_ne_zero]
        rfl
    _ ≤ m * 2 ^ e := by
        refine mul_le_mul ?_ (zpow_le_zpow_right₀ one_le_two he) (by positivity)
          (Nat.cast_nonneg _)
        exact_mod_cast hfull

/-- What comes first by its exponent, and then by its mantissa, is smaller. -/
theorem Fits.mul_zpow_lt (h : Fits m e) (h' : Fits n e') (hlt : e < e' ∨ e = e' ∧ m < n) :
    (m : ℚ) * 2 ^ e < n * 2 ^ e' := by
  rcases hlt with hlt | ⟨rfl, hlt⟩
  · -- The larger exponent is not the least one, so its mantissa has all its bits.
    have hfull : 2 ^ 52 ≤ n := h'.full.resolve_left (by have := h.least; omega)
    calc (m : ℚ) * 2 ^ e < 2 ^ 53 * 2 ^ e := by
          refine mul_lt_mul_of_pos_right ?_ (by positivity)
          exact_mod_cast h.upper
      _ = 2 ^ 52 * 2 ^ (e + 1) := by rw [zpow_add_one₀ two_ne_zero]; ring
      _ ≤ n * 2 ^ e' := by
          refine mul_le_mul ?_ (zpow_le_zpow_right₀ one_le_two hlt) (by positivity)
            (Nat.cast_nonneg n)
          exact_mod_cast hfull
  · exact mul_lt_mul_of_pos_right (by exact_mod_cast hlt) (by positivity)

/-- A finite number in its parts, which fit. -/
def IsProper : UnpackedFloat → Prop
  | .finite _ m e _ => Fits m e
  | .zero _ => True
  | _ => False

/-- Finite numbers have proper parts. -/
theorem isProper_unpack (hx : x.isFinite = true) : IsProper x.toModel.unpack := by
  change x.toModel.unpack.isFinite = true at hx
  cases hu : x.toModel.unpack with
  | notANumber | infinity => rw [hu] at hx; cases hx
  | zero => trivial
  | finite => exact (fits_of_unpack hu).1

/-- What has an earlier place has a smaller value. -/
theorem value_lt_of_place {u v : UnpackedFloat} (hu : IsProper u) (hv : IsProper v)
    (h : unpackedPlace u < unpackedPlace v) :
    (Binary64.ofUnpacked u).value < (Binary64.ofUnpacked v).value := by
  rcases u with _ | _ | _ | ⟨_ | _, m, e, hm⟩ <;> rcases v with _ | _ | _ | ⟨_ | _, n, e', hn⟩ <;>
    simp_all [unpackedPlace, Binary64.ofUnpacked, Binary64.value, IsProper,
      Prod.Lex.toLex_lt_toLex]
  case zero.finite.positive => positivity
  case finite.negative.zero => positivity
  case finite.negative.finite.negative =>
    exact hv.mul_zpow_lt hu (h.imp_right (And.imp_left Eq.symm))
  case finite.negative.finite.positive =>
    exact (neg_neg_of_pos (by positivity)).trans (by positivity)
  case finite.positive.finite.positive => exact hu.mul_zpow_lt hv h

/-- Finite numbers are in the order of their values. -/
theorem float_lt_iff_floatValue (hx : x.isFinite = true) (hy : y.isFinite = true) :
    x < y ↔ floatValue x < floatValue y := by
  have hproper := isProper_unpack hx
  have hproper' := isProper_unpack hy
  rw [float_lt_iff (isNaN_of_isFinite hx) (isNaN_of_isFinite hy), floatPlace, floatPlace,
    floatValue_eq, floatValue_eq]
  refine ⟨value_lt_of_place hproper hproper', fun hlt => ?_⟩
  -- Otherwise the places are the same, or the other way round.
  by_contra hge
  rcases (not_lt.1 hge).lt_or_eq with hgt | heq
  · exact lt_asymm hlt (value_lt_of_place hproper' hproper hgt)
  · exact hlt.ne (value_eq_of_place hy hx heq).symm

/-! ## The product -/

/-- Eight times a finite number is not rounded. -/
theorem unpack_mul_eight {hpos : 0 < m} (hx : x.toModel.unpack = .finite s m e hpos) :
    ∃ (k : Nat) (hpos' : 0 < m * 2 ^ k), Fits (m * 2 ^ k) (e + 3 - k) ∧
      (x * 8.0).toModel.unpack = viaBits (.finite s (m * 2 ^ k) (e + 3 - k) hpos') := by
  obtain ⟨k, hk, hfits⟩ := (fits_of_unpack hx).1.exists_eightfold
  have hpos' : 0 < m * 2 ^ k := Nat.mul_pos hpos (Nat.two_pow_pos k)
  refine ⟨k, hpos', hfits, ?_⟩
  -- The product of the mantissas is the new one, with zeros behind it.
  have hmantissa : m * 2 ^ 52 = m * 2 ^ k * 2 ^ (52 - k) := by
    rw [Nat.mul_assoc, ← Nat.pow_add]
    congr 2
    omega
  have hexponent : e + -49 = e + 3 - k - (52 - k : Nat) := by omega
  have hsign : s * .positive = s := by cases s <;> rfl
  rw [unpack_mul, hx, unpack_eight]
  simp only [UnpackedFloat.mul, hmantissa, hexponent, hsign, hfits.roundWithAccuracy_eq hpos']

/-- Eight times a finite number is exact, or infinite with the same sign if the exact product is
beyond every number. -/
inductive Eightfold (x : Float) : Prop
  /-- The product is a number, and it is the exact one. -/
  | exact (hfinite : (x * 8.0).isFinite = true) (hvalue : floatValue (x * 8.0) = 8 * floatValue x)
  /-- The exact product is above every number. -/
  | above (hunpack : (x * 8.0).toModel.unpack = .infinity .positive)
      (hvalue : 2 ^ 1024 ≤ 8 * floatValue x)
  /-- The exact product is below every number. -/
  | below (hunpack : (x * 8.0).toModel.unpack = .infinity .negative)
      (hvalue : 8 * floatValue x ≤ -2 ^ 1024)

/-- Eight times a finite number is exact or infinite. By the parts of the number: the exponent of
the product is within the range or beyond it. -/
theorem mul_eight_cases (hx : x.isFinite = true) : Eightfold x := by
  change x.toModel.unpack.isFinite = true at hx
  cases hu : x.toModel.unpack with
  | notANumber | infinity => rw [hu] at hx; cases hx
  | zero s =>
    have hproduct : (x * 8.0).toModel.unpack = .zero s := by
      rw [unpack_mul, hu, unpack_eight]
      cases s <;> rfl
    refine .exact ?_ ?_
    · change (x * 8.0).toModel.unpack.isFinite = true
      rw [hproduct]
      rfl
    · simp [floatValue_eq, hproduct, hu, Binary64.ofUnpacked, Binary64.value]
  | finite s m e hpos =>
    obtain ⟨k, hpos', hfits, hproduct⟩ := unpack_mul_eight hu
    -- What the mantissa gains the exponent lacks, however much room there was in the mantissa.
    have hmagnitude : ((m * 2 ^ k : Nat) : ℚ) * 2 ^ (e + 3 - k) = 8 * (m * 2 ^ e) := by
      push_cast
      rw [mul_assoc, ← zpow_natCast, ← zpow_add₀ two_ne_zero, add_sub_cancel, zpow_add₀ two_ne_zero]
      ring
    have hvalue := floatValue_of_unpack hu
    by_cases he : e + 3 - k ≤ 971
    · rw [hfits.viaBits_eq hpos' he] at hproduct
      refine .exact ?_ ?_
      · change (x * 8.0).toModel.unpack.isFinite = true
        rw [hproduct]
        rfl
      · rw [floatValue_of_unpack hproduct, hvalue]
        cases s with
        | negative =>
          simp only [Sign.apply, Int.cast_neg, Int.cast_natCast]
          linear_combination -hmagnitude
        | positive =>
          simp only [Sign.apply, Int.cast_natCast]
          linear_combination hmagnitude
    · have hlarge : (2 : ℚ) ^ 1024 ≤ 8 * (m * 2 ^ e) := by
        rw [← hmagnitude]
        exact hfits.le_mul_zpow (not_le.1 he)
      rw [Fits.viaBits_of_lt hpos' (not_le.1 he)] at hproduct
      cases s with
      | negative =>
        refine .below hproduct ?_
        rw [hvalue, Sign.apply, Int.cast_neg, Int.cast_natCast, neg_mul, mul_neg]
        exact neg_le_neg hlarge
      | positive =>
        refine .above hproduct ?_
        rw [hvalue, Sign.apply, Int.cast_natCast]
        exact hlarge

end LteMac

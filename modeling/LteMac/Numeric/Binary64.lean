/-!
# Binary floating point, taken apart

A `Float` is a sign, a natural mantissa and a power of two, or one of the special values. The
parts are read off the bits of the number, so that rules about its exact value (cutting off a
fraction, finding the shortest decimal that reads back) can be stated and computed in whole
numbers.
-/

namespace LteMac

/-- What a double-precision number stands for: `finite` is `± mantissa · 2 ^ exponent`. -/
inductive Binary64 where
  /-- Not a number, whichever one it is. -/
  | nan
  /-- Beyond every number, on one side or the other. -/
  | infinite (negative : Bool)
  /-- A number, of which zero is one with either sign. -/
  | finite (negative : Bool) (mantissa : Nat) (exponent : Int)
deriving DecidableEq

namespace Binary64

/-- Bits of the fraction field. -/
def fractionBits : Nat := 52

/-- The exponent of the smallest subnormal number. -/
def minExponent : Int := -1074

/-- The parts of the number with the given bits. -/
def ofBits (bits : UInt64) : Binary64 :=
  let negative := bits >>> 63 == 1
  let field := ((bits >>> 52) &&& 0x7FF).toNat
  let fraction := (bits &&& 0xFFFFFFFFFFFFF).toNat
  if field == 0x7FF then if fraction == 0 then infinite negative else nan
  else if field == 0 then finite negative fraction minExponent
  else finite negative (fraction + (1 <<< fractionBits)) (field - 1 + minExponent)

/-- The parts of a number. -/
def ofFloat (x : Float) : Binary64 := ofBits x.toBits

/-- `mantissa · 2 ^ exponent` with the fraction cut off. -/
def shifted (mantissa : Nat) : Int → Nat
  | .ofNat e => mantissa <<< e
  | .negSucc e => mantissa >>> (e + 1)

end Binary64

end LteMac

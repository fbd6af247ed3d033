import LteMac.Numeric.Binary64

/-!
# SINR on the wire

Uplink reports carry one signal-to-interference-and-noise ratio per resource block, in signed
eighths of a decibel on sixteen bits. One code is set apart: it says that the block was not
measured, and decodes to a value far below every real one.
-/

namespace LteMac.Sinr

/-- The value (dB) of a block without a measurement. -/
def unmeasured : Float := -5000.0

/-- The code set apart for `unmeasured`. -/
def unmeasuredCode : UInt16 := 0x8000

/-- The largest magnitude a measured code carries, in eighths of a decibel. -/
def saturation : Int := 32767

/-- The value of a code, in decibels. -/
def decode (code : UInt16) : Float :=
  if code = unmeasuredCode then unmeasured else Float.ofInt code.toInt16.toInt / 8.0

/-- A value in eighths of a decibel, the fraction cut off and the magnitude saturated; a value
that is not a number counts as zero. -/
def eighths (value : Float) : Int :=
  match Binary64.ofFloat value with
  | .nan => 0
  | .infinite negative => if negative then -saturation else saturation
  | .finite negative mantissa exponent =>
    let magnitude : Int := min (Binary64.shifted mantissa (exponent + 3)) saturation
    if negative then -magnitude else magnitude

/-- The code of a value in decibels. -/
def encode (value : Float) : UInt16 :=
  if value == unmeasured then unmeasuredCode else (Int16.ofInt (eighths value)).toUInt16

end LteMac.Sinr

import LteMac.Numeric.Decimal

/-!
# Numbers in messages

Reports and messages write numbers in three ways: exactly, by the shortest decimal that reads back
and never with an exponent; rounded to one place; and in hexadecimal with a fixed width.
-/

namespace LteMac.Numeric

/-- Writes a text on the right of a column. -/
def padLeft (width : Nat) (text : String) : String :=
  String.ofList (List.replicate (width - text.length) ' ') ++ text

/-- Puts a sign before a text. -/
def signed (negative : Bool) (text : String) : String := if negative then "-" ++ text else text

/-- A number exactly: the shortest decimal, all of its digits written out. -/
def exact (x : Float) : String :=
  match Binary64.ofFloat x with
  | .nan => "NaN"
  | .infinite negative => signed negative "inf"
  | .finite negative 0 _ => signed negative "0"
  | .finite negative mantissa exponent =>
    signed negative (Binary64.shortest mantissa exponent).text

/-- A number rounded to one place. -/
def onePlace (x : Float) : String :=
  match Binary64.ofFloat x with
  | .nan => "NaN"
  | .infinite negative => signed negative "inf"
  | .finite negative mantissa exponent =>
    signed negative (Decimal.text ⟨Binary64.tenths mantissa exponent, -1⟩)

/-- The lowest `width` hexadecimal digits of a number. -/
def hexadecimal (width n : Nat) : String :=
  String.ofList ((List.range width).reverse.map fun i => Nat.digitChar (n >>> (4 * i) % 16))

end LteMac.Numeric

import LteMac.Numeric.Binary64

/-!
# Decimals of binary numbers

The exact value of a finite double is the fraction `numerator / denominator`. Two decimals of it
are computed here in whole numbers:

* `Binary64.shortest`: of the decimals that read back as the number, one with the fewest digits,
  and of those the nearest;
* `Binary64.tenths`: the number in tenths, a half going to the even neighbour.

Main statement: `roundHalfEven` is within half a unit of the quotient (`roundHalfEven_near`).
-/

namespace LteMac

/-- The number of decimal digits; zero has none. -/
def digitCount (n : Nat) : Nat := if n = 0 then 0 else digitCount (n / 10) + 1

/-- A quotient rounded to the nearest whole number; a half goes to the even neighbour. -/
def roundHalfEven (numerator denominator : Nat) : Nat :=
  let q := numerator / denominator
  let twice := 2 * (numerator % denominator)
  if denominator < twice ∨ twice = denominator ∧ q % 2 = 1 then q + 1 else q

theorem roundHalfEven_near (n d : Nat) (hd : 0 < d) :
    2 * n ≤ (2 * roundHalfEven n d + 1) * d ∧ (2 * roundHalfEven n d) * d ≤ 2 * n + d := by
  have hdiv := Nat.div_add_mod n d
  have hmod := Nat.mod_lt n hd
  dsimp only [roundHalfEven]
  generalize n / d = q at *
  generalize n % d = r at *
  subst hdiv
  split <;> constructor <;> grind

/-- The decimal `digits · 10 ^ exponent`. -/
structure Decimal where
  digits : Nat
  exponent : Int
deriving DecidableEq

namespace Decimal

/-- The same decimal without zeros at the end of its digits, for a bound on their number. -/
def strip (d : Decimal) : Nat → Decimal
  | 0 => d
  | bound + 1 =>
    if d.digits % 10 = 0 then strip ⟨d.digits / 10, d.exponent + 1⟩ bound else d

/-- The decimal written out, without an exponent. -/
def text (d : Decimal) : String :=
  let digits := (Nat.repr d.digits).toList
  match d.exponent with
  | .ofNat e => String.ofList (digits ++ List.replicate e '0')
  | .negSucc e =>
    let digits := List.replicate (e + 2 - digits.length) '0' ++ digits
    let whole := digits.length - (e + 1)
    String.ofList (digits.take whole ++ '.' :: digits.drop whole)

/-- Decimals below this power of ten read as zero. -/
def leastMagnitude : Int := -324

/-- Decimals from this power of ten on read as infinity. -/
def greatestMagnitude : Int := 310

/-- The number that a decimal reads as: the nearest double, or infinity. -/
def toFloat (d : Decimal) : Float :=
  let magnitude := d.exponent + digitCount d.digits
  if d.digits = 0 ∨ magnitude ≤ leastMagnitude then 0.0
  else if greatestMagnitude < magnitude then 1.0 / 0.0
  else Float.ofScientific d.digits (d.exponent < 0) d.exponent.natAbs

end Decimal

namespace Binary64

/-- Digits that are enough to tell any two doubles apart. -/
def enoughDigits : Nat := 17

/-- `mantissa · 2 ^ exponent` as a fraction. -/
def fraction (mantissa : Nat) : Int → Nat × Nat
  | .ofNat e => (mantissa <<< e, 1)
  | .negSucc e => (mantissa, 1 <<< (e + 1))

/-- The fraction `n / d` as a decimal grid sees it: `k` such that it lies in
`[10 ^ (k - 1), 10 ^ k)`. -/
def magnitude (n d : Nat) : Int :=
  if d ≤ n then digitCount (n / d) else 1 - digitCount ((d - 1) / n)

/-- Numbers that round to a given double: those between `lower` and `upper`, over `4` times its
denominator. Below a power of two the neighbours are twice as close. The ends belong to it if its
mantissa is even. -/
structure Neighbourhood where
  lower : Nat
  upper : Nat
  closed : Bool

/-- The numbers that round to `mantissa · 2 ^ exponent`. -/
def neighbourhood (mantissa : Nat) (exponent : Int) : Neighbourhood :=
  let unit := (fraction 1 exponent).1
  let below := if mantissa = 1 <<< fractionBits ∧ exponent ≠ minExponent then 1 else 2
  ⟨(4 * mantissa - below) * unit, (4 * mantissa + 2) * unit, mantissa % 2 = 0⟩

/-- Whether the fraction `n / d` lies in a neighbourhood, for the denominator of its double. -/
def Neighbourhood.contains (h : Neighbourhood) (denominator n d : Nat) : Bool :=
  let x := 4 * n * denominator
  if h.closed then h.lower * d ≤ x && x ≤ h.upper * d else h.lower * d < x && x < h.upper * d

/-- A decimal with `count` digits that reads back as `mantissa · 2 ^ exponent`, the nearest one,
of two the larger: if there is one, then one of the two around the number is. -/
def withDigits? (mantissa : Nat) (exponent : Int) (count : Nat) : Option Decimal :=
  let (n, d) := fraction mantissa exponent
  let grid := magnitude n d - count
  let (up, down) := match grid with
    | .ofNat e => (1, Nat.pow 10 e)
    | .negSucc e => (Nat.pow 10 (e + 1), 1)
  -- The number is `n * up / (d * down)` steps of the grid, and `k` steps are `k * down / up`.
  let steps := n * up / (d * down)
  let reads (k : Nat) := (neighbourhood mantissa exponent).contains d (k * down) up
  let nearer := if 2 * (n * up % (d * down)) < d * down then steps else steps + 1
  let farther := if nearer = steps then steps + 1 else steps
  if reads nearer then some ⟨nearer, grid⟩
  else if reads farther then some ⟨farther, grid⟩
  else none

/-- The shortest decimal that reads back as `mantissa · 2 ^ exponent`. -/
def shortest (mantissa : Nat) (exponent : Int) : Decimal :=
  let found := (List.range enoughDigits).findSome? fun i => withDigits? mantissa exponent (i + 1)
  (found.getD ⟨mantissa, exponent⟩).strip (enoughDigits + 1)

/-- The number in tenths, rounded. -/
def tenths (mantissa : Nat) (exponent : Int) : Nat :=
  let (n, d) := fraction mantissa exponent
  roundHalfEven (10 * n) d

end Binary64

end LteMac

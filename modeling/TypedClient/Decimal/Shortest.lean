/-! # Shortest decimals

The decimal number with the fewest digits that reads back as a given double precision number, and
the nearest of those when there are several. The search is exact: a double is `m * 2 ^ q`, the
numbers that round to it form an interval around it, and each decimal grid is tested at the two
points next to the value.
-/

namespace TypedClient

/-- The positive number `digits * 10 ^ exponent`. -/
structure Decimal where
  digits : Nat
  exponent : Int
  deriving DecidableEq, Repr

namespace Decimal

/-- Moves trailing zeros of the digits into the exponent. -/
def trimmed (digits : Nat) (exponent : Int) : Decimal :=
  if h : digits ≠ 0 ∧ digits % 10 = 0 then trimmed (digits / 10) (exponent + 1)
  else ⟨digits, exponent⟩
termination_by digits
decreasing_by omega

/-- How many decimal digits `n` has. -/
def width (n : Nat) : Nat := (Nat.toDigits 10 n).length

/-! ## The interval of a double -/

/-- A positive number and the interval of numbers that round to it, over a common denominator. -/
structure Interval where
  low : Nat
  value : Nat
  high : Nat
  denominator : Nat
  /-- Whether the two ends round to the number as well. -/
  closed : Bool

/-- The interval of `mantissa * 2 ^ exponent`; at a power of two the lower neighbour is closer. -/
def Interval.ofBinary (mantissa : Nat) (exponent : Int) (powerOfTwo : Bool) : Interval :=
  let scale := Nat.pow 2 (exponent - 2).toNat
  { low := (4 * mantissa - if powerOfTwo then 1 else 2) * scale
    value := 4 * mantissa * scale
    high := (4 * mantissa + 2) * scale
    denominator := Nat.pow 2 (2 - exponent).toNat
    closed := mantissa % 2 == 0 }

/-- The interval of a finite double other than zero, by its absolute value. -/
def Interval.ofFloat (x : Float) : Interval :=
  let bits := x.toBits.toNat
  let fraction : Nat := bits % Nat.pow 2 52
  let biased : Nat := bits / Nat.pow 2 52 % Nat.pow 2 11
  -- below the least normal number there is no leading bit
  if biased = 0 then ofBinary fraction (-1074) false
  else ofBinary (fraction + Nat.pow 2 52) (Int.ofNat biased - 1075) (fraction == 0 && 1 < biased)

/-- The same interval measured in units of `10 ^ exponent`. -/
def Interval.inUnits (i : Interval) (exponent : Int) : Interval :=
  let shrink := Nat.pow 10 (-exponent).toNat
  { i with
    low := i.low * shrink
    value := i.value * shrink
    high := i.high * shrink
    denominator := i.denominator * Nat.pow 10 exponent.toNat }

def Interval.holds (i : Interval) (n : Nat) : Bool :=
  let point := n * i.denominator
  if i.closed then i.low ≤ point && point ≤ i.high else i.low < point && point < i.high

/-- The point of the integer grid that is in the interval and nearest to the value, even on a
tie. -/
def Interval.nearest? (i : Interval) : Option Nat :=
  let below := i.value / i.denominator
  match i.holds below, i.holds (below + 1) with
  | false, false => none
  | true,  false => some below
  | false, true  => some (below + 1)
  | true,  true  =>
    let middle := (2 * below + 1) * i.denominator
    if 2 * i.value < middle then some below
    else if middle < 2 * i.value then some (below + 1)
    -- a tie goes to the even point
    else some (below + below % 2)

/-- The number of digits before the decimal point; zero or less for a number below one tenth. -/
def Interval.magnitude (i : Interval) : Int :=
  (width (i.value * Nat.pow 10 400 / i.denominator) : Int) - 400

/-- The shortest decimal in the interval. Seventeen digits always suffice. -/
def Interval.shortest (i : Interval) : Decimal :=
  let found := (List.range 17).findSome? fun n =>
    let exponent := i.magnitude - (n + 1 : Nat)
    (i.inUnits exponent).nearest?.map (trimmed · exponent)
  found.getD ⟨0, 0⟩

/-- The shortest decimal that reads back as the absolute value of a finite double, not zero. -/
def ofFloat (x : Float) : Decimal := (Interval.ofFloat x).shortest

/-- The double nearest to `digits * 10 ^ exponent`; far outside the range of a double, infinity or
zero. -/
def toFloat (d : Decimal) : Float :=
  let size := width d.digits + d.exponent
  if d.digits = 0 ∨ size < -330 then 0.0
  else if 310 < size then 1.0 / 0.0
  else Float.ofScientific d.digits (d.exponent < 0) d.exponent.natAbs

end Decimal

end TypedClient

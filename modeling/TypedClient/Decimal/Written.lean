import TypedClient.Decimal.Shortest

/-! # Written reals

How a double is written: where the plain form ends and the one with an exponent begins, and what a
whole number looks like.
-/

namespace TypedClient

/-- The choices that tell one way of writing reals from another. -/
structure RealStyle where
  /-- Numbers whose point stands this far or farther before the first digit take an exponent. -/
  leastPoint : Option Int
  /-- Numbers with more digits than this before the point take an exponent. -/
  greatestPoint : Option Int
  /-- What follows the digits of a whole number in the plain form. -/
  wholeEnding : String
  /-- What stands before an exponent that is not negative. -/
  exponentSign : String

/-- Keys and versions read from a document: plain from `1e-5` up to below `1e16`. -/
def RealStyle.key : RealStyle := ⟨some (-5), some 16, ".0", ""⟩

/-- Values of a document: as keys, and a large exponent has its sign. -/
def RealStyle.value : RealStyle := ⟨some (-5), some 16, ".0", "+"⟩

/-- Rendered fields: never an exponent, and a whole number has no point. -/
def RealStyle.plain : RealStyle := ⟨none, none, "", ""⟩

namespace Decimal

def plain (wholeEnding digits : String) (point : Int) : String :=
  if digits.length ≤ point then
    digits ++ String.ofList (List.replicate (point - digits.length).toNat '0') ++ wholeEnding
  else if 0 < point then
    (digits.take point.toNat).toString ++ "." ++ (digits.drop point.toNat).toString
  else
    "0." ++ String.ofList (List.replicate (-point).toNat '0') ++ digits

def scientific (sign digits : String) (point : Int) : String :=
  let fraction := (digits.drop 1).toString
  (digits.take 1).toString ++ (if fraction.isEmpty then "" else "." ++ fraction)
    ++ "e" ++ (if 0 < point then sign else "") ++ toString (point - 1)

/-- Writes a positive decimal. The point stands after `point` digits, counted from the first. -/
def write (style : RealStyle) (d : Decimal) : String :=
  let digits := String.ofList (Nat.toDigits 10 d.digits)
  let point := digits.length + d.exponent
  let small := style.leastPoint.any (point ≤ ·)
  let large := style.greatestPoint.any (· < point)
  if small || large then scientific style.exponentSign digits point
  else plain style.wholeEnding digits point

end Decimal

/-- The text of a finite double. -/
def RealStyle.write (style : RealStyle) (x : Float) : String :=
  let sign := if Nat.pow 2 63 ≤ x.toBits.toNat then "-" else ""
  if x == 0.0 then sign ++ "0" ++ style.wholeEnding
  else sign ++ (Decimal.ofFloat x).write style

end TypedClient

/- The shortest decimal that reads back as a given binary64 number, and its text. -/
import Prepass.Decimal.Basic
namespace Prepass

/-- The reals that round to one binary64 magnitude, as fractions of one denominator. -/
structure RoundingInterval where
  low : Nat
  value : Nat
  high : Nat
  den : Nat
  /-- Whether the two ends round to the magnitude too. -/
  closed : Bool

namespace RoundingInterval

/-- Half a step to either side; below a power of two the step is half as wide. -/
def ofMagnitude (significand shift : Nat) : RoundingInterval :=
  let value := 4 * significand <<< shift
  let below := if significand = 1 <<< 52 ∧ shift ≠ 0 then 1 else 2
  { low := value - below <<< shift
    value
    high := value + 2 <<< shift
    den := 4 * Binary64.unitsPerOne
    closed := significand % 2 == 0 }

/-- Whether `num / scale` lies in the interval. -/
def holds (i : RoundingInterval) (num scale : Nat) : Bool :=
  let n := num * i.den
  if i.closed then i.low * scale ≤ n && n ≤ i.high * scale
  else i.low * scale < n && n < i.high * scale

/-- The place `p` of the decimal point, counted from before the first digit:
`10^(p - 1) ≤ value < 10^p`. -/
def point (i : RoundingInterval) : Int :=
  if i.den ≤ i.value then (Nat.toDigits 10 (i.value / i.den)).length
  else 1 - (Nat.toDigits 10 ((i.den - 1) / i.value)).length

/-- The nearer to the value of its two neighbours among multiples of `step / scale`, if one of them
lies in the interval: of two equally near the even one. -/
def neighbour? (i : RoundingInterval) (step scale : Nat) : Option Nat :=
  let below := i.value * scale / (step * i.den)
  let rest := i.value * scale % (step * i.den)
  let lowFits := i.holds (below * step) scale
  let highFits := i.holds ((below + 1) * step) scale
  let preferLow := 2 * rest < step * i.den || (2 * rest == step * i.den && below % 2 == 0)
  if lowFits && (preferLow || !highFits) then some below
  else if highFits then some (below + 1)
  else none

/-- Tries ever more digits, starting with `digits`. -/
def shortestFrom (i : RoundingInterval) (digits : Nat) : Nat → Decimal
  | 0 => ⟨0, 0⟩
  | fuel + 1 =>
    let exponent := i.point - digits
    match i.neighbour? (Nat.pow 10 exponent.toNat) (Nat.pow 10 (-exponent).toNat) with
    | some coefficient => ⟨coefficient, exponent⟩
    | none => shortestFrom i (digits + 1) fuel

end RoundingInterval

namespace Decimal

/-- The same number without zeros at the end of the coefficient. -/
def trim (d : Decimal) : Decimal :=
  if d.coefficient ≠ 0 ∧ d.coefficient % 10 = 0 then trim ⟨d.coefficient / 10, d.exponent + 1⟩
  else d
termination_by d.coefficient
decreasing_by omega

/-- The decimal of fewest digits that reads back as the magnitude, and of those the nearest;
seventeen digits always suffice. -/
def shortest (significand shift : Nat) : Decimal :=
  ((RoundingInterval.ofMagnitude significand shift).shortestFrom 1 17).trim

/-- How a decimal is written. -/
structure Format where
  /-- The places of the point for which no exponent is used. -/
  leastPoint : Int
  greatestPoint : Int
  /-- Whether a whole number keeps a zero after the point. -/
  wholePoint : Bool
  exponentWidth : Nat

def zeros (n : Nat) : Text := List.replicate n '0'

/-- The text of a positive decimal. -/
def render (f : Format) (d : Decimal) : Text :=
  let digits := Text.ofNat d.coefficient
  let point := digits.length + d.exponent
  if f.leastPoint ≤ point && point ≤ f.greatestPoint then
    if point ≤ 0 then "0." ++ zeros (-point).toNat ++ digits
    else if 0 ≤ d.exponent then
      digits ++ zeros d.exponent.toNat ++ (if f.wholePoint then (".0" : Text) else [])
    else digits.take point.toNat ++ "." ++ digits.drop point.toNat
  else
    let exponent := point - 1
    let magnitude := Text.ofNat exponent.natAbs
    let mantissa : Text := match digits with
      | first :: second :: more => first :: (CodePoint.ofChar '.' :: second :: more)
      | short => short
    mantissa ++ (if exponent < 0 then ("e-" : Text) else "e+") ++
      zeros (f.exponentWidth - magnitude.length) ++ magnitude

end Decimal

end Prepass

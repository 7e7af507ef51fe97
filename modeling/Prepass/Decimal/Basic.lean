/- Decimal numbers, their nearest binary64 numbers, and the reader of decimal literals. -/
import Prepass.Binary64.Rounding
import Prepass.Text.Basic
namespace Prepass

/-- The value of an ASCII digit in bases up to sixteen. -/
def CodePoint.asciiDigit? (c : CodePoint) : Option Nat :=
  if 0x30 ≤ c.toNat && c.toNat ≤ 0x39 then some (c.toNat - 0x30)
  else if 0x41 ≤ c.toNat && c.toNat ≤ 0x46 then some (c.toNat - 0x37)
  else if 0x61 ≤ c.toNat && c.toNat ≤ 0x66 then some (c.toNat - 0x57)
  else none

def CodePoint.isAsciiDigit (base : Nat) (c : CodePoint) : Bool :=
  c.asciiDigit?.any (· < base)

/-- The value of a run of ASCII digits. -/
def Text.digitsValue (base : Nat) (digits : Text) : Nat :=
  digits.foldl (fun n c => n * base + c.asciiDigit?.getD 0) 0

/-- The decimal number `coefficient · 10^exponent`. -/
structure Decimal where
  coefficient : Nat
  exponent : Int
deriving DecidableEq

namespace Decimal

/-- The binary64 number nearest a decimal. Where the first digit alone puts the value beyond the
format, no power of ten is formed. -/
def nearest (negative : Bool) (d : Decimal) : Binary64 :=
  let point := (Nat.toDigits 10 d.coefficient).length + d.exponent
  if d.coefficient = 0 ∨ point < -400 then .zero negative
  else if 400 < point then .infinite negative
  else if 0 ≤ d.exponent then
    .ofRatio negative (d.coefficient * Nat.pow 10 d.exponent.toNat * Binary64.unitsPerOne) 1
  else .ofRatio negative (d.coefficient * Binary64.unitsPerOne) (Nat.pow 10 (-d.exponent).toNat)

/-- The exponent after an exponent mark, with an optional sign, and its length. -/
def readExponent? (t : Text) : Option (Int × Nat) :=
  let sign := t.head?.filter fun (c : CodePoint) => c = '+' ∨ c = '-'
  let digits := (t.drop sign.toList.length).takeWhile (CodePoint.isAsciiDigit 10)
  if digits.isEmpty then none
  else
    let n : Int := Text.digitsValue 10 digits
    some (if sign = some (CodePoint.ofChar '-') then -n else n, sign.toList.length + digits.length)

/-- The digits of a fraction, if a point begins one, and its length with the point. -/
def readFraction (t : Text) : Text × Nat :=
  match t with
  | [] => ([], 0)
  | c :: rest =>
    let digits := rest.takeWhile (CodePoint.isAsciiDigit 10)
    if c = '.' then (digits, digits.length + 1) else ([], 0)

/-- Reads the longest beginning that is a decimal literal, and tells its length: digits with an
optional fraction, or a fraction alone, and an optional exponent. An exponent mark without digits
spoils the literal. -/
def read? (t : Text) : Option (Decimal × Nat) :=
  let whole := t.takeWhile (CodePoint.isAsciiDigit 10)
  let (fraction, fractionLength) := readFraction (t.drop whole.length)
  let length := whole.length + fractionLength
  let coefficient := Text.digitsValue 10 (whole ++ fraction)
  if whole.isEmpty && fraction.isEmpty then none
  else match t.drop length with
    | [] => some (⟨coefficient, -fraction.length⟩, length)
    | mark :: after =>
      if mark = 'e' ∨ mark = 'E' then
        (readExponent? after).map fun (exponent, exponentLength) =>
          (⟨coefficient, exponent - fraction.length⟩, length + 1 + exponentLength)
      else some (⟨coefficient, -fraction.length⟩, length)

end Decimal

end Prepass

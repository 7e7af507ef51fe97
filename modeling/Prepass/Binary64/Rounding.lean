/- Rounding to the nearest binary64 number, ties to an even significand. -/
import Prepass.Binary64.Basic
namespace Prepass

/-- The natural number nearest `num / den`, the even one of two. -/
def roundHalfEven (num den : Nat) : Nat :=
  let floor := num / den
  let rest := num % den
  if 2 * rest < den then floor
  else if den < 2 * rest then floor + 1
  else floor + floor % 2

namespace Binary64

/-- The number nearest `±num / den` units. -/
def ofRatio (negative : Bool) (num den : Nat) : Binary64 :=
  let shift := (num / den).log2 - 52
  let significand := roundHalfEven num (den <<< shift)
  if significand < 1 <<< 53 then make negative significand shift
  else make negative (significand / 2) (shift + 1)

/-- The number nearest an integer; far integers become infinite. -/
def ofInt (n : Int) : Binary64 := ofRatio (n < 0) (n.natAbs * unitsPerOne) 1

end Binary64

end Prepass

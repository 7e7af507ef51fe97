/- Arithmetic: each operation is its exact result, rounded once. -/
import Prepass.Binary64.Rounding
namespace Prepass.Binary64

/-- A sum that cancels is a positive zero, unless both terms are negative zeros. -/
def add : Binary64 → Binary64 → Binary64
  | .nan, _ | _, .nan => .nan
  | .infinite a, .infinite b => if a = b then .infinite a else .nan
  | .infinite a, .finite .. => .infinite a
  | .finite .., .infinite b => .infinite b
  | .finite a m s _, .finite b n t _ =>
    let sum := withSign a (m <<< s) + withSign b (n <<< t)
    if sum = 0 then zero (a && b) else ofRatio (sum < 0) sum.natAbs 1

def sub (x y : Binary64) : Binary64 := add x y.neg

def mul : Binary64 → Binary64 → Binary64
  | .nan, _ | _, .nan => .nan
  | .infinite a, .infinite b => .infinite (a != b)
  | .infinite a, .finite b n _ _ => if n = 0 then .nan else .infinite (a != b)
  | .finite a m _ _, .infinite b => if m = 0 then .nan else .infinite (a != b)
  | .finite a m s _, .finite b n t _ => ofRatio (a != b) (m <<< s * n <<< t) unitsPerOne

def div : Binary64 → Binary64 → Binary64
  | .nan, _ | _, .nan => .nan
  | .infinite _, .infinite _ => .nan
  | .infinite a, .finite b .. => .infinite (a != b)
  | .finite a .., .infinite b => zero (a != b)
  | .finite a m s _, .finite b n t _ =>
    if n = 0 then if m = 0 then .nan else .infinite (a != b)
    else ofRatio (a != b) (m <<< s * unitsPerOne) (n <<< t)

/-- The remainder of the division toward zero; it has the sign of the dividend. -/
def rem : Binary64 → Binary64 → Binary64
  | .nan, _ | _, .nan => .nan
  | .infinite _, _ => .nan
  | .finite a m s h, .infinite _ => .finite a m s h
  | .finite a m s _, .finite _ n t _ =>
    if n = 0 then .nan else ofRatio a (m <<< s % n <<< t) 1

end Prepass.Binary64

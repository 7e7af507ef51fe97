/- IEEE 754 binary64 numbers, held as exact integers in units of `2^-1074`. -/
namespace Prepass

/-- The one form that the format gives to the magnitude `significand · 2^shift`: the significand has
53 bits, or fewer where the shift can go no lower. -/
def Binary64.Canonical (significand shift : Nat) : Prop :=
  significand < 1 <<< 53 ∧ shift ≤ 2045 ∧ (1 <<< 52 ≤ significand ∨ shift = 0)

instance (significand shift : Nat) : Decidable (Binary64.Canonical significand shift) := by
  unfold Binary64.Canonical
  infer_instance

/-- A binary64 number. A finite one is `±significand · 2^shift` units of `2^-1074`. -/
inductive Binary64 where
  | nan
  | infinite (negative : Bool)
  | finite (negative : Bool) (significand shift : Nat)
      (canonical : Binary64.Canonical significand shift)
deriving DecidableEq

namespace Binary64

/-- The number of units in one. -/
def unitsPerOne : Nat := 1 <<< 1074

def zero (negative : Bool) : Binary64 := .finite negative 0 0 (by decide)

instance : Inhabited Binary64 := ⟨.nan⟩

/-- The number with this sign and magnitude; a magnitude beyond the format becomes infinite. -/
def make (negative : Bool) (significand shift : Nat) : Binary64 :=
  if h : Canonical significand shift then .finite negative significand shift h
  else .infinite negative

def withSign (negative : Bool) (magnitude : Nat) : Int :=
  if negative then -(magnitude : Int) else magnitude

/-- The value in units, infinities lying beyond every finite number; a NaN has none. -/
def units? : Binary64 → Option Int
  | .nan => none
  | .infinite negative => some (withSign negative (1 <<< 2098))
  | .finite negative significand shift _ => some (withSign negative (significand <<< shift))

def isNaN (x : Binary64) : Bool := x.units?.isNone

def isZero (x : Binary64) : Bool := x.units? == some 0

/-- Equality of values: both zeros are equal and a NaN equals nothing. -/
def equals (x y : Binary64) : Bool :=
  match x.units?, y.units? with
  | some a, some b => a = b
  | _, _ => false

def lt (x y : Binary64) : Bool :=
  match x.units?, y.units? with
  | some a, some b => a < b
  | _, _ => false

def le (x y : Binary64) : Bool :=
  match x.units?, y.units? with
  | some a, some b => a ≤ b
  | _, _ => false

def neg : Binary64 → Binary64
  | .nan => .nan
  | .infinite negative => .infinite !negative
  | .finite negative significand shift h => .finite (!negative) significand shift h

/-- The whole part of a finite number, toward zero. -/
def truncate? : Binary64 → Option Int
  | .finite negative significand shift _ =>
    some (withSign negative (significand <<< shift / unitsPerOne))
  | _ => none

/-- The number that a 64-bit word encodes. -/
def ofBits (word : Nat) : Binary64 :=
  let negative := word >>> 63 % 2 == 1
  let exponent := word >>> 52 % 2048
  let fraction := word % 1 <<< 52
  if exponent = 2047 then
    if fraction = 0 then .infinite negative else .nan
  else if exponent = 0 then make negative fraction 0
  else make negative (1 <<< 52 + fraction) (exponent - 1)

/-- The 64-bit word of a number. -/
def toBits : Binary64 → Nat
  | .nan => 2047 <<< 52 + 1 <<< 51
  | .infinite negative => (if negative then 1 <<< 63 else 0) + 2047 <<< 52
  | .finite negative significand shift _ =>
    (if negative then 1 <<< 63 else 0) +
      if significand < 1 <<< 52 then significand
      else (shift + 1) <<< 52 + (significand - 1 <<< 52)

end Binary64

end Prepass

/- Arithmetic on values, and the operators on words of 32 bits. -/
import Prepass.Binary64.Arithmetic
import Prepass.Value.Comparison
namespace Prepass

namespace Arithmetic

def apply : Arithmetic → Binary64 → Binary64 → Binary64
  | .add => Binary64.add
  | .sub => Binary64.sub
  | .mul => Binary64.mul
  | .div => Binary64.div
  | .rem => Binary64.rem

end Arithmetic

/-- The word of 32 bits that the whole part of a number leaves; none gives zero. -/
def Binary64.word (x : Binary64) : Nat :=
  match x.truncate? with
  | some n => (n % 0x100000000).toNat
  | none => 0

/-- A word of 32 bits as a signed number. -/
def signed32 (word : Nat) : Int :=
  if 0x80000000 ≤ word then (word : Int) - 0x100000000 else word

/-- An integer in two's complement: its sign, which continues its bits without end, and the places
whose bits differ from the sign. -/
@[ext]
structure TwosComplement where
  negative : Bool
  differing : Nat

namespace TwosComplement

def ofInt : Int → TwosComplement
  | .ofNat n => ⟨false, n⟩
  | .negSucc n => ⟨true, n⟩

def toInt : TwosComplement → Int
  | ⟨false, n⟩ => .ofNat n
  | ⟨true, n⟩ => .negSucc n

/-- Combines the bits of two integers place by place. -/
def combine (f : Bool → Bool → Bool) (a b : TwosComplement) : TwosComplement :=
  let negative := f a.negative b.negative
  { negative
    differing :=
      Nat.bitwise (fun x y => f (x != a.negative) (y != b.negative) != negative)
        a.differing b.differing }

end TwosComplement

/-- An operation on bits, applied at every place of two integers. -/
def onBits (f : Bool → Bool → Bool) (m n : Int) : Int :=
  (TwosComplement.combine f (.ofInt m) (.ofInt n)).toInt

/-- The operators on words; the distance of a shift counts modulo 32. All but the last one work on
the signed numbers of the words, and a left shift cuts its result to a word again. -/
def Bitwise.apply (op : Bitwise) (a b : Nat) : Int :=
  match op with
  | .and => onBits Bool.and (signed32 a) (signed32 b)
  | .or => onBits Bool.or (signed32 a) (signed32 b)
  | .xor => onBits Bool.xor (signed32 a) (signed32 b)
  | .shiftLeft => signed32 (Binary64.ofInt (signed32 a <<< (b % 32))).word
  | .shiftRight => signed32 a >>> (b % 32)
  | .shiftRightZero => a >>> (b % 32)

namespace Value

def toUInt32 (v : Value) : Except Fault Nat := v.toNumber.map Binary64.word

def toInt32 (v : Value) : Except Fault Int := v.toUInt32.map signed32

/-- The numbers that arithmetic works on. -/
def numbers (v w : Value) : Except Fault (Binary64 × Binary64) := do
  let v ← v.toPrimitive
  let w ← w.toPrimitive
  let x ← v.toNumber
  let y ← w.toNumber
  return (x, y)

/-- A sum with a text on either side is a concatenation. -/
def arithmetic (op : Arithmetic) (v w : Value) : Except Fault Value := do
  let v' ← v.toPrimitive
  let w' ← w.toPrimitive
  if op = .add ∧ (v'.kind = .string ∨ w'.kind = .string) then
    let s ← v'.toText
    let t ← w'.toText
    return .str (s ++ t)
  else
    let (x, y) ← numbers v' w'
    return .num (op.apply x y)

/-- The operator of a given spelling; the operands are converted before the spelling is judged. -/
def arithmeticSpelled (spelling : Text) (v w : Value) : Except Fault Value :=
  match Arithmetic.ofText? spelling with
  | some op => arithmetic op v w
  | none => do
    let _ ← numbers v w
    throw (.unknownOperator .arithmetic)

def bitwise (op : Bitwise) (v w : Value) : Except Fault Binary64 := do
  let b ← w.toUInt32
  let a ← v.toUInt32
  return .ofInt (op.apply a b)

/-- The operator of a given spelling; the second operand is converted before the spelling is
judged. -/
def bitwiseSpelled (spelling : Text) (v w : Value) : Except Fault Binary64 :=
  match Bitwise.ofText? spelling with
  | some op => bitwise op v w
  | none => do
    let _ ← w.toUInt32
    throw (.unknownOperator .bitwise)

def negate (v : Value) : Except Fault Value := v.toNumber.map fun x => .num x.neg

def complement (v : Value) : Except Fault Value :=
  v.toInt32.map fun n => .num (.ofInt (-n - 1))

end Value

end Prepass

/- Equality and order of values. -/
import Prepass.Operator
import Prepass.Value.Conversion
namespace Prepass

namespace Value

/-- The identity of a list, a dictionary or a value of an unsupported type. -/
def identity? : Value → Option ObjectId
  | .list id .. | .dict id .. | .foreign id .. => some id
  | _ => none

/-- Equality without conversions; objects equal only themselves. -/
def strictEquals (v w : Value) : Except Fault Bool :=
  match v, w with
  | .undefined, .undefined | .null, .null => .ok true
  | .bool a, .bool b => .ok (a = b)
  | .str s, .str t => .ok (s = t)
  | v, w =>
    if v.kind = .number ∧ w.kind = .number then do
      let x ← v.toNumber
      let y ← w.toNumber
      return x.equals y
    else .ok (v.identity?.isSome && v.identity? = w.identity?)

/-- How many conversions loose equality can still make on an operand. -/
def coercions (v : Value) : Nat := if v.kind = .boolean ∨ v.kind = .object then 1 else 0

/-- Equality with conversions: truth values become numbers and objects become texts until the kinds
agree or a number meets a text. -/
def looseEquals (v w : Value) : Except Fault Bool :=
  if v.kind = w.kind then strictEquals v w
  else if v.kind = .undefined ∨ v.kind = .null ∨ w.kind = .undefined ∨ w.kind = .null then
    .ok ((v.kind = .undefined ∨ v.kind = .null) ∧ (w.kind = .undefined ∨ w.kind = .null))
  else if _h : v.kind = .boolean then do
    let x ← v.toNumber
    looseEquals (.num x) w
  else if _h : w.kind = .boolean then do
    let y ← w.toNumber
    looseEquals v (.num y)
  else if _h : v.kind = .object then do
    let s ← v.toText
    looseEquals (.str s) w
  else if _h : w.kind = .object then do
    let t ← w.toText
    looseEquals v (.str t)
  else do
    let x ← v.toNumber
    let y ← w.toNumber
    return x.equals y
termination_by v.coercions + w.coercions
decreasing_by all_goals simp_all [coercions, kind]

/-- Objects become texts; other values stay. -/
def toPrimitive (v : Value) : Except Fault Value :=
  if v.kind = .object then v.toText.map .str else .ok v

/-- Two texts, or two numbers. -/
inductive Comparands where
  | texts (s t : Text)
  | numbers (x y : Binary64)

/-- What order looks at: two texts if both operands are texts, else their numbers. -/
def comparands (v w : Value) : Except Fault Comparands := do
  let v ← v.toPrimitive
  let w ← w.toPrimitive
  match v, w with
  | .str s, .str t => return .texts s t
  | v, w =>
    let x ← v.toNumber
    let y ← w.toNumber
    return .numbers x y

end Value

/-- A relation that involves a NaN does not hold. -/
def Relation.holds : Relation → Value.Comparands → Bool
  | .lt, .texts s t => Text.lt s t
  | .le, .texts s t => !Text.lt t s
  | .gt, .texts s t => Text.lt t s
  | .ge, .texts s t => !Text.lt s t
  | .lt, .numbers x y => x.lt y
  | .le, .numbers x y => x.le y
  | .gt, .numbers x y => y.lt x
  | .ge, .numbers x y => y.le x

namespace Value

def compare (op : Relation) (v w : Value) : Except Fault Bool := (comparands v w).map op.holds

/-- The relation of a given spelling; the operands are converted before the spelling is judged. -/
def compareSpelled (spelling : Text) (v w : Value) : Except Fault Bool := do
  let operands ← comparands v w
  match Relation.ofText? spelling with
  | some op => return op.holds operands
  | none => throw (.unknownOperator .relational)

end Value

end Prepass

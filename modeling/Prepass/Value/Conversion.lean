/- Conversions of values to truth values, texts and numbers, and their literals. -/
import Prepass.Decimal.Shortest
import Prepass.Fault
import Prepass.Text.Integer
import Prepass.Text.Quoted
import Prepass.Value.Basic
namespace Prepass

namespace Binary64

/-- The number itself, unless it is infinite. -/
def bounded? : Binary64 → Except Fault Binary64
  | .infinite _ => .error .numberTooLarge
  | x => .ok x

/-- The number of an exact integer, which must not be too far away. -/
def ofInt? (n : Int) : Except Fault Binary64 := (ofInt n).bounded?

/-- Numbers from a millionth up to `10^21` are written without an exponent. -/
def textFormat : Decimal.Format := ⟨-5, 21, false, 1⟩

def toText : Binary64 → Text
  | .nan => "NaN"
  | .infinite false => "Infinity"
  | .infinite true => "-Infinity"
  | .finite negative significand shift _ =>
    if significand = 0 then "0"
    else (if negative then ("-" : Text) else []) ++
      (Decimal.shortest significand shift).render textFormat

end Binary64

namespace Text

/-- The base that a number text announces, and the digits that should follow. -/
def announcedBase? (t : Text) : Option (Nat × Text) :=
  match t with
  | z :: mark :: rest =>
    if z = '0' then
      if mark = 'x' ∨ mark = 'X' then some (16, rest)
      else if mark = 'o' ∨ mark = 'O' then some (8, rest)
      else if mark = 'b' ∨ mark = 'B' then some (2, rest)
      else none
    else none
  | _ => none

/-- A whole text as a decimal literal with an optional sign; anything else is no number. -/
def signedDecimal (t : Text) : Binary64 :=
  let read (negative : Bool) (t : Text) : Binary64 :=
    match Decimal.read? t with
    | some (d, length) => if length = t.length then d.nearest negative else .nan
    | none => .nan
  match t with
  | c :: rest => if c = '-' then read true rest else if c = '+' then read false rest else read false t
  | [] => .nan

/-- The number that a text means; blank texts mean zero. -/
def toNumber (t : Text) : Except Fault Binary64 :=
  let t := strip t
  if t.isEmpty then .ok (.zero false)
  else if t = ofString "Infinity" ∨ t = ofString "+Infinity" then .ok (.infinite false)
  else if t = ofString "-Infinity" then .ok (.infinite true)
  else match announcedBase? t with
    | some (base, digits) =>
      match readInteger? base digits with
      | some n => Binary64.ofInt? n
      | none => .ok .nan
    | none => .ok (signedDecimal t)

end Text

namespace Value

def truthy : Value → Except Fault Bool
  | .undefined | .null => .ok false
  | .bool b => .ok b
  | .int n => if n = 0 then .ok false else (Binary64.ofInt? n).map fun _ => true
  | .num x => .ok !(x.isZero || x.isNaN)
  | .str t => .ok !t.isEmpty
  | .list .. | .dict .. | .foreign .. => .ok true

mutual

def toText : Value → Except Fault Text
  | .undefined => .ok "undefined"
  | .null => .ok "null"
  | .bool b => .ok (if b then "true" else "false")
  | .int n => (Binary64.ofInt? n).map Binary64.toText
  | .num x => .ok x.toText
  | .str t => .ok t
  | .list _ _ items => (itemTexts items).map (Text.join ",")
  | .dict .. | .foreign .. => .ok "[object Object]"

/-- The texts of list items; absent ones leave nothing. -/
def itemTexts : List Value → Except Fault (List Text)
  | [] => .ok []
  | .undefined :: rest | .null :: rest => (itemTexts rest).map ([] :: ·)
  | v :: rest => do
    let t ← v.toText
    let ts ← itemTexts rest
    return t :: ts

end

mutual

/-- The literal that stands for a value in code. -/
def literal : Value → Except Fault Text
  | .str t => .ok (Text.quote t)
  | .list _ _ items => (literals items).map fun ts => "[" ++ Text.join "," ts ++ "]"
  | .dict _ entries =>
    (entryLiterals entries).map fun ts => "\x7b" ++ Text.join "," ts ++ "\x7d"
  | v => v.toText

def literals : List Value → Except Fault (List Text)
  | [] => .ok []
  | v :: rest => do
    let t ← v.literal
    let ts ← literals rest
    return t :: ts

def entryLiterals : List (Key × Value) → Except Fault (List Text)
  | [] => .ok []
  | (key, v) :: rest => do
    let t ← v.literal
    let ts ← entryLiterals rest
    return (Text.quote key.text ++ ":" ++ t) :: ts

end

def toNumber : Value → Except Fault Binary64
  | .undefined => .ok .nan
  | .null => .ok (.zero false)
  | .bool b => .ok (Binary64.ofInt (if b then 1 else 0))
  | .int n => Binary64.ofInt? n
  | .num x => .ok x
  | .str t => Text.toNumber t
  | .list id form items => do
    let t ← (Value.list id form items).toText
    Text.toNumber t
  | .dict .. | .foreign .. => .ok .nan

end Value

end Prepass

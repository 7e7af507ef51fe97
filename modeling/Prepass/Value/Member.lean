/- Members of values: entries of dictionaries, and items and lengths of lists and texts. -/
import Prepass.Value.Conversion
namespace Prepass

/-- A member was asked of a value that has none. -/
def Diagnostic.memberOfNothing (holder key : Text) : Diagnostic :=
  { kind := .expressionRuntime
    text := "Cannot read properties of " ++ holder ++ " (reading " ++ Text.quote key ++ ")" }

/-- The position that a member name denotes: digits only. More decimal digits than can be read, or a
digit that is no decimal position, make the name malformed. -/
def Text.index? (name : Text) : Except Fault (Option Nat) :=
  if name.isEmpty || !name.all CodePoint.isDigit then .ok none
  else if decimalLimit < leadingDecimals name then .error (.malformedIndex name)
  else match name.mapM CodePoint.decimalValue? with
    | some digits => .ok (some (digits.foldl (fun n d => n * 10 + d) 0))
    | none => .error (.malformedIndex name)

namespace Value

/-- The item under a member name in a sequence of values. -/
def item (items : List Value) (name : Text) : Except Fault Value :=
  if name = Text.ofString "length" then .ok (.num (.ofInt items.length))
  else (Text.index? name).map fun
    | some i => items.getD i .undefined
    | none => .undefined

def member (v key : Value) : Except Fault Value := do
  let name ← key.toText
  match v with
  | .undefined => throw (.reported (.memberOfNothing "undefined" name))
  | .null => throw (.reported (.memberOfNothing "null" name))
  | .str t => item (t.map fun c => .str [c]) name
  | .list _ _ items => item items name
  | .dict _ entries => return (lookup? name entries).getD .undefined
  | .bool _ | .int _ | .num _ | .foreign .. => return .undefined

end Value

end Prepass

/- Values as they are shown to a developer. -/
import Prepass.Decimal.Shortest
import Prepass.Text.Display
import Prepass.Value.Basic
namespace Prepass

/-- Numbers of up to sixteen whole digits are shown without an exponent, and with a point. -/
def Binary64.displayFormat : Decimal.Format := ⟨-3, 16, true, 2⟩

def Binary64.display : Binary64 → Text
  | .nan => "nan"
  | .infinite false => "inf"
  | .infinite true => "-inf"
  | .finite negative significand shift _ =>
    (if negative then ("-" : Text) else []) ++
      if significand = 0 then ("0.0" : Text)
      else (Decimal.shortest significand shift).render displayFormat

def Key.display : Key → Text
  | .name t => Text.display t
  | .number n => Text.ofInt n

namespace Value

mutual

def display : Value → Text
  | .undefined => "undefined"
  | .null => "None"
  | .bool b => if b then "True" else "False"
  | .int n => Text.ofInt n
  | .num x => x.display
  | .str t => Text.display t
  | .list _ .list items => "[" ++ Text.join ", " (displays items) ++ "]"
  | .list _ .tuple [v] => "(" ++ v.display ++ ",)"
  | .list _ .tuple items => "(" ++ Text.join ", " (displays items) ++ ")"
  | .dict _ entries => "\x7b" ++ Text.join ", " (entryDisplays entries) ++ "\x7d"
  | .foreign _ name => name ++ "()"

def displays : List Value → List Text
  | [] => []
  | v :: rest => v.display :: displays rest

def entryDisplays : List (Key × Value) → List Text
  | [] => []
  | (key, v) :: rest => (key.display ++ ": " ++ v.display) :: entryDisplays rest

end

end Value

end Prepass

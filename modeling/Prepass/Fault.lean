/- Everything that can stop an evaluation. -/
import Prepass.Diagnostic
import Prepass.Text.Digit
import Prepass.Text.Display
namespace Prepass

/-- Groups of operators, for complaints about a spelling that none of them has. -/
inductive OperatorFamily where
  | unary
  | binary
  | relational
  | arithmetic
  | bitwise
deriving DecidableEq

inductive Fault where
  /-- A problem of the file that is being read. -/
  | reported (d : Diagnostic)
  /-- An integer that no finite binary64 number is near to. -/
  | numberTooLarge
  /-- An index with too many decimal digits, or with a digit that is no decimal position. -/
  | malformedIndex (key : Text)
  | unknownOperator (family : OperatorFamily)
  /-- A tree with a place that holds no expression. -/
  | unfinishedTree
deriving DecidableEq

namespace Fault

def message : Fault → Text
  | .reported d => d.message
  | .numberTooLarge => "int too large to convert to float"
  | .malformedIndex key =>
    let decimals := Text.leadingDecimals key
    if Text.decimalLimit < decimals then
      "Exceeds the limit (" ++ Text.ofNat Text.decimalLimit ++
        " digits) for integer string conversion: value has " ++ Text.ofNat decimals ++
        " digits; use sys.set_int_max_str_digits() to increase the limit"
    else "invalid literal for int() with base 10: " ++ (Text.display key).take 200
  | .unknownOperator .unary => "Not a valid unary operator."
  | .unknownOperator .binary => "Not a binary operator."
  | .unknownOperator .relational => "Not a relational operator."
  | .unknownOperator .arithmetic => "Not an arithmetic operator."
  | .unknownOperator .bitwise => "Not a bitwise operator."
  | .unfinishedTree => []

/-- Attributes a fault of the file to a place; other faults have none. -/
def locate (fault : Fault) (file : Option Text) (line : Option Nat) : Fault :=
  match fault with
  | .reported d => .reported (d.locate file line)
  | other => other

end Fault

end Prepass

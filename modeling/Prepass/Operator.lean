/- Operators of expressions, by family. -/
import Prepass.Text.Basic
namespace Prepass

inductive Relation where
  | lt
  | le
  | gt
  | ge
deriving DecidableEq

namespace Relation

def spelling : Relation → Text
  | .lt => "<"
  | .le => "<="
  | .gt => ">"
  | .ge => ">="

def ofText? (t : Text) : Option Relation := [lt, le, gt, ge].find? (·.spelling = t)

end Relation

inductive Arithmetic where
  | add
  | sub
  | mul
  | div
  | rem
deriving DecidableEq

namespace Arithmetic

def spelling : Arithmetic → Text
  | .add => "+"
  | .sub => "-"
  | .mul => "*"
  | .div => "/"
  | .rem => "%"

def ofText? (t : Text) : Option Arithmetic := [add, sub, mul, div, rem].find? (·.spelling = t)

end Arithmetic

inductive Bitwise where
  | and
  | or
  | xor
  | shiftLeft
  /-- Copies the sign bit. -/
  | shiftRight
  /-- Fills with zeros. -/
  | shiftRightZero
deriving DecidableEq

namespace Bitwise

def spelling : Bitwise → Text
  | .and => "&"
  | .or => "|"
  | .xor => "^"
  | .shiftLeft => "<<"
  | .shiftRight => ">>"
  | .shiftRightZero => ">>>"

def ofText? (t : Text) : Option Bitwise :=
  [and, or, xor, shiftLeft, shiftRight, shiftRightZero].find? (·.spelling = t)

end Bitwise

inductive Equality where
  /-- Equal after conversions. -/
  | loose
  | looseNot
  | strict
  | strictNot
deriving DecidableEq

namespace Equality

def spelling : Equality → Text
  | .loose => "=="
  | .looseNot => "!="
  | .strict => "==="
  | .strictNot => "!=="

def ofText? (t : Text) : Option Equality := [loose, looseNot, strict, strictNot].find? (·.spelling = t)

end Equality

/-- Operators that look at the second operand only if the first does not decide. -/
inductive Logical where
  | and
  | or
deriving DecidableEq

namespace Logical

def spelling : Logical → Text
  | .and => "&&"
  | .or => "||"

def ofText? (t : Text) : Option Logical := [and, or].find? (·.spelling = t)

end Logical

inductive BinaryOperator where
  | logical (op : Logical)
  | equality (op : Equality)
  | relation (op : Relation)
  | arithmetic (op : Arithmetic)
  | bitwise (op : Bitwise)
  /-- A spelling that no operator has. -/
  | unknown (spelling : Text)
deriving DecidableEq

namespace BinaryOperator

def spelling : BinaryOperator → Text
  | .logical op => op.spelling
  | .equality op => op.spelling
  | .relation op => op.spelling
  | .arithmetic op => op.spelling
  | .bitwise op => op.spelling
  | .unknown t => t

def ofText? (t : Text) : Option BinaryOperator :=
  (Logical.ofText? t).map .logical <|> (Equality.ofText? t).map .equality <|>
    (Relation.ofText? t).map .relation <|> (Arithmetic.ofText? t).map .arithmetic <|>
      (Bitwise.ofText? t).map .bitwise

def ofText (t : Text) : BinaryOperator := (ofText? t).getD (.unknown t)

/-- Operators of higher precedence bind tighter; the conditional stands below all of them. -/
def precedence : BinaryOperator → Nat
  | .unknown _ => 0
  | .logical .or => 2
  | .logical .and => 3
  | .bitwise .or => 4
  | .bitwise .xor => 5
  | .bitwise .and => 6
  | .equality _ => 7
  | .relation _ => 8
  | .bitwise .shiftLeft | .bitwise .shiftRight | .bitwise .shiftRightZero => 9
  | .arithmetic .add | .arithmetic .sub => 10
  | .arithmetic .mul | .arithmetic .div | .arithmetic .rem => 11

end BinaryOperator

inductive UnaryOperator where
  | negate
  | plus
  | not
  | complement
  /-- A spelling that no operator has. -/
  | unknown (spelling : Text)
deriving DecidableEq

namespace UnaryOperator

def spelling : UnaryOperator → Text
  | .negate => "-"
  | .plus => "+"
  | .not => "!"
  | .complement => "~"
  | .unknown t => t

def ofText? (t : Text) : Option UnaryOperator :=
  [negate, plus, not, complement].find? (·.spelling = t)

def ofText (t : Text) : UnaryOperator := (ofText? t).getD (.unknown t)

/-- Unary operators bind tighter than every binary one. -/
def precedence : Nat := 12

end UnaryOperator

end Prepass

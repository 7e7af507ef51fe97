/- Expression trees and their values. -/
import Prepass.Environment
import Prepass.Value.Arithmetic
import Prepass.Value.Member
namespace Prepass

inductive Expr where
  | literal (v : Value)
  | variable (name : Text)
  | member (target key : Expr)
  | unary (op : UnaryOperator) (operand : Expr)
  | binary (op : BinaryOperator) (lhs rhs : Expr)
  | conditional (condition whenTrue whenFalse : Expr)
  /-- A place that no expression has filled. -/
  | hole

/-- An identifier that is neither a keyword nor a variable. -/
def Diagnostic.notDefined (name : Text) : Diagnostic :=
  { kind := .expressionRuntime, text := name ++ " is not defined" }

namespace Value

def unary (op : UnaryOperator) (v : Value) : Except Fault Value :=
  match op with
  | .negate => v.negate
  | .plus => v.toNumber.map .num
  | .not => v.truthy.map fun b => .bool !b
  | .complement => v.complement
  | .unknown _ => .error (.unknownOperator .unary)

def equality (op : Equality) (v w : Value) : Except Fault Bool :=
  match op with
  | .loose => v.looseEquals w
  | .looseNot => (v.looseEquals w).map not
  | .strict => v.strictEquals w
  | .strictNot => (v.strictEquals w).map not

/-- The operators that always look at both operands. -/
def binary (op : BinaryOperator) (v w : Value) : Except Fault Value :=
  match op with
  | .equality op => (equality op v w).map .bool
  | .relation op => (compare op v w).map .bool
  | .arithmetic op => arithmetic op v w
  | .bitwise op => (bitwise op v w).map .num
  | .logical _ | .unknown _ => .error (.unknownOperator .binary)

end Value

/-- Whether a first operand of this truth value is already the result. -/
def Logical.decidedBy : Logical → Bool → Bool
  | .and, b => !b
  | .or, b => b

namespace Expr

/-- The value of an expression. Variables that are not set are undefined; other names are errors. -/
def eval (env : Environment) : Expr → Except Fault Value
  | .literal v => .ok v
  | .variable name =>
    if name.isVariableName then .ok (env.get name) else .error (.reported (.notDefined name))
  | .member target key => do
    let v ← target.eval env
    let k ← key.eval env
    v.member k
  | .unary op operand => do
    let v ← operand.eval env
    Value.unary op v
  | .binary (.logical op) lhs rhs => do
    let v ← lhs.eval env
    if op.decidedBy (← v.truthy) then return v else rhs.eval env
  | .binary op lhs rhs => do
    let v ← lhs.eval env
    let w ← rhs.eval env
    Value.binary op v w
  | .conditional condition whenTrue whenFalse => do
    let v ← condition.eval env
    if ← v.truthy then whenTrue.eval env else whenFalse.eval env
  | .hole => .error .unfinishedTree

end Expr

end Prepass

/- Expression trees from tokens, by operator precedence. -/
import Prepass.Expression.Token
import Prepass.Expression.Tree
namespace Prepass

inductive ParseError where
  | emptyExpression
  | unexpectedEnd
  | unexpectedToken (t : Text)
  | unexpectedOperator (t : Text)
  | expected (t : Text)
  | expectedTerm (found : Text)
deriving DecidableEq

def ParseError.message : ParseError → Text
  | .emptyExpression => "Empty expression."
  | .unexpectedEnd => "Unexpected end of expression."
  | .unexpectedToken t => "Unexpected token '" ++ t ++ "'."
  | .unexpectedOperator t => "Unexpected operator '" ++ t ++ "'."
  | .expected t => "Expected '" ++ t ++ "'."
  | .expectedTerm found => "Expected number, string or identifier, found '" ++ found ++ "'."

namespace Expr

/-- Six identifiers are literals, all others are variables. -/
def ofIdentifier (name : Text) : Expr :=
  if name = Text.ofString "true" then .literal (.bool true)
  else if name = Text.ofString "false" then .literal (.bool false)
  else if name = Text.ofString "null" then .literal .null
  else if name = Text.ofString "undefined" then .literal .undefined
  else if name = Text.ofString "NaN" then .literal (.num .nan)
  else if name = Text.ofString "Infinity" then .literal (.num (.infinite false))
  else .variable name

def isSymbol (kind : TokenKind) (text : Text) (token : Token) : Bool :=
  token.kind = kind && token.text = text

/-- Drops a token that has to come next. -/
def expect (kind : TokenKind) (text : Text) : List Token → Except ParseError (List Token)
  | [] => .error .unexpectedEnd
  | token :: rest => if isSymbol kind text token then .ok rest else .error (.expected text)

mutual

/-- Reads an expression whose binary operators have at least the given precedence. -/
def expression : Nat → Nat → List Token → Except ParseError (Expr × List Token)
  | 0, _, _ | _ + 1, _, [] => .error .unexpectedEnd
  | fuel + 1, least, token :: rest =>
    match token.kind with
    | .operator =>
      match UnaryOperator.ofText? token.text with
      | none => .error (.unexpectedOperator token.text)
      | some op => do
        let (operand, rest) ← expression fuel UnaryOperator.precedence rest
        operators fuel least (.unary op operand) rest
    | .punctuator =>
      if token.text = Text.ofString "(" then do
        let (inner, rest) ← expression fuel 0 rest
        let rest ← expect .punctuator ")" rest
        members fuel least inner rest
      else .error (.expectedTerm token.text)
    | .number x => members fuel least (.literal (.num x)) rest
    | .string t => members fuel least (.literal (.str t)) rest
    | .identifier => members fuel least (ofIdentifier token.text) rest

/-- Reads the member accesses after a term, then the operators after them. -/
def members : Nat → Nat → Expr → List Token → Except ParseError (Expr × List Token)
  | 0, _, _, _ => .error .unexpectedEnd
  | _ + 1, _, target, [] => .ok (target, [])
  | fuel + 1, least, target, token :: rest =>
    if isSymbol .punctuator "." token then
      match rest with
      | [] => .error .unexpectedEnd
      | name :: rest =>
        if name.kind = .identifier then
          members fuel least (.member target (.literal (.str name.text))) rest
        else .error (.unexpectedToken name.text)
    else if isSymbol .punctuator "[" token then do
      let (key, rest) ← expression fuel 0 rest
      let rest ← expect .punctuator "]" rest
      members fuel least (.member target key) rest
    else operators fuel least target (token :: rest)

/-- Reads binary operators of at least the given precedence with their right operands. The
conditional has precedence one and is right associative. -/
def operators : Nat → Nat → Expr → List Token → Except ParseError (Expr × List Token)
  | 0, _, _, _ => .error .unexpectedEnd
  | _ + 1, _, lhs, [] => .ok (lhs, [])
  | fuel + 1, least, lhs, token :: rest =>
    if isSymbol .operator "?" token && least ≤ 1 then do
      let (whenTrue, rest) ← expression fuel 0 rest
      let rest ← expect .operator ":" rest
      let (whenFalse, rest) ← expression fuel 1 rest
      operators fuel least (.conditional lhs whenTrue whenFalse) rest
    else match BinaryOperator.ofText? token.text with
      | some op =>
        if token.kind = .operator ∧ least ≤ op.precedence then do
          let (rhs, rest) ← expression fuel (op.precedence + 1) rest
          operators fuel least (.binary op lhs rhs) rest
        else .ok (lhs, token :: rest)
      | none => .ok (lhs, token :: rest)

end

/-- The tree of a whole token list. Every call reads a token or hands on to `operators`, so twice
the number of tokens is fuel enough. -/
def ofTokens (tokens : List Token) : Except ParseError Expr :=
  if tokens.isEmpty then .error .emptyExpression
  else match expression (2 * tokens.length + 2) 0 tokens with
    | .error e => .error e
    | .ok (tree, []) => .ok tree
    | .ok (_, token :: _) => .error (.unexpectedToken token.text)

end Expr

/-- A text that is no expression. -/
def Diagnostic.invalidExpression (text reason : Text) : Diagnostic :=
  { kind := .expressionSyntax, text := "Invalid expression '" ++ text ++ "': " ++ reason }

namespace Expr

/-- The tree of an expression text. -/
def ofText (text : Text) : Except Fault Expr :=
  match Token.scan text with
  | .error ⟨.numberTooLarge, _⟩ => .error .numberTooLarge
  | .error stop => .error (.reported (.invalidExpression text stop.error.message))
  | .ok tokens =>
    match ofTokens tokens with
    | .error e => .error (.reported (.invalidExpression text e.message))
    | .ok tree => .ok tree

/-- The value of an expression text. -/
def evalText (env : Environment) (text : Text) : Except Fault Value := do
  let tree ← ofText text
  tree.eval env

def evalCondition (env : Environment) (text : Text) : Except Fault Bool := do
  let v ← evalText env text
  v.truthy

end Expr

end Prepass

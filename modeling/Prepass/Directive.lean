/- Directives, and the lines that hold them. -/
import Prepass.Comment.Style
import Prepass.Diagnostic
import Prepass.Environment
import Prepass.Log
import Prepass.Text.Blank
import Prepass.Text.Digit
namespace Prepass

/-- What decides whether a block begins active. -/
inductive Condition where
  /-- The truth value of an expression. -/
  | holds (expression : Text)
  | isSet (name : Text)
  | isNotSet (name : Text)
deriving DecidableEq

inductive Action where
  | opening (condition : Condition)
  | elseIf (expression : Text)
  | otherwise
  | closing
  /-- Without an expression the variable becomes undefined. -/
  | set (name : Text) (expression : Option Text)
  | unset (name : Text)
  | error (message : Text)
deriving DecidableEq

structure Directive where
  line : Nat
  action : Action
deriving DecidableEq

inductive Keyword where
  | ifHolds
  | elseIf
  | otherwise
  | endIf
  | ifSet
  | ifNotSet
  | set
  | unset
  | error
deriving DecidableEq

namespace Keyword

def spelling : Keyword → Text
  | .ifHolds => "if"
  | .elseIf => "elif"
  | .otherwise => "else"
  | .endIf => "endif"
  | .ifSet => "ifset"
  | .ifNotSet => "ifnset"
  | .set => "set"
  | .unset => "unset"
  | .error => "error"

def ofText? (t : Text) : Option Keyword :=
  [ifHolds, elseIf, otherwise, endIf, ifSet, ifNotSet, set, unset, error].find? (·.spelling = t)

end Keyword

namespace Action

def keyword : Action → Keyword
  | .opening (.holds _) => .ifHolds
  | .opening (.isSet _) => .ifSet
  | .opening (.isNotSet _) => .ifNotSet
  | .elseIf _ => .elseIf
  | .otherwise => .otherwise
  | .closing => .endIf
  | .set .. => .set
  | .unset _ => .unset
  | .error _ => .error

/-- The expression or message that a directive carries. -/
def argument? : Action → Option Text
  | .opening (.holds expression) | .elseIf expression => some expression
  | .set _ expression => expression
  | .error message => some message
  | _ => none

/-- The variable that a directive names. -/
def name? : Action → Option Text
  | .opening (.isSet name) | .opening (.isNotSet name) | .set name _ | .unset name => some name
  | _ => none

/-- The usual spelling of a directive, whatever its line looked like. -/
def spelling (action : Action) : Text :=
  Text.join " " (("#" ++ action.keyword.spelling) ::
    (action.name?.toList ++ action.argument?.toList))

end Action

namespace Diagnostic

def missingExpression (keyword : Keyword) (line : Nat) : Diagnostic :=
  { kind := .directiveSyntax
    text := "#" ++ keyword.spelling ++ " requires an expression."
    line := some line }

def notAVariable (keyword : Keyword) (found : Text) (line : Nat) : Diagnostic :=
  { kind := .directiveSyntax
    text := "#" ++ keyword.spelling ++ " requires a variable name, found '" ++ found ++ "'."
    line := some line }

end Diagnostic

namespace Directive

/-- Something after `#else` or `#endif` that is no further comment. -/
def additionalTokens (file : Text) (line : Nat) (keyword : Keyword) (argument : Text) : LogEntry :=
  ⟨.warning, file ++ ":" ++ Text.ofNat line ++ ": Additional tokens at end of directive: #" ++
    keyword.spelling ++ " " ++ argument⟩

/-- The argument without the first of the closers that it ends with. An empty closer takes all. -/
def stripCloser (closers : List Text) (argument : Text) : Text :=
  match closers.find? (·.isSuffixOf argument) with
  | none => argument
  | some [] => []
  | some closer => Text.stripRight (argument.take (argument.length - closer.length))

/-- Whether a keyword may end before this text. -/
def endsKeyword (style : CommentStyle) (after : Text) : Bool :=
  match after with
  | [] => true
  | c :: _ => c.isBlank || (style.lineOpeners ++ style.closers).any (·.isPrefixOf after)

/-- The assignment of a `#set` directive: a name and an optional expression, which one equals sign
may precede. -/
def assignment? (argument : Text) : Option (Text × Option Text) :=
  let name := argument.takeWhile CodePoint.isIdentifierChar
  let after := Text.strip (argument.dropWhile CodePoint.isIdentifierChar)
  let expression :=
    match after with
    | c :: rest => if c = '=' ∧ rest.head? ≠ some (CodePoint.ofChar '=') then Text.strip rest else after
    | [] => []
  if Text.isVariableName name then some (name, if expression.isEmpty then none else some expression)
  else none

/-- The directive of a keyword and its argument, and what is to be said about it. -/
def ofArgument (style : CommentStyle) (file : Text) (line : Nat) (keyword : Keyword)
    (argument : Text) : Except Diagnostic (Directive × Log) :=
  let expression (action : Text → Action) : Except Diagnostic (Directive × Log) :=
    if argument.isEmpty then .error (.missingExpression keyword line)
    else .ok (⟨line, action argument⟩, [])
  let variableName (action : Text → Action) : Except Diagnostic (Directive × Log) :=
    if argument.isVariableName then .ok (⟨line, action argument⟩, [])
    else .error (.notAVariable keyword argument line)
  let nothing (action : Action) : Except Diagnostic (Directive × Log) :=
    .ok (⟨line, action⟩,
      if argument.isEmpty || style.openers.any (·.isPrefixOf argument) then []
      else [additionalTokens file line keyword argument])
  match keyword with
  | .ifHolds => expression fun e => .opening (.holds e)
  | .elseIf => expression .elseIf
  | .otherwise => nothing .otherwise
  | .endIf => nothing .closing
  | .ifSet => variableName fun name => .opening (.isSet name)
  | .ifNotSet => variableName fun name => .opening (.isNotSet name)
  | .unset => variableName .unset
  | .error => .ok (⟨line, .error argument⟩, [])
  | .set =>
    match assignment? argument with
    | some (name, expression) => .ok (⟨line, .set name expression⟩, [])
    | none => .error (.notAVariable .set argument line)

/-- The keyword and argument of a directive line: blanks, an opener, blanks, `#`, a known keyword,
and then a blank, a comment delimiter or the end. -/
def split? (style : CommentStyle) (text : Text) : Option (Keyword × Text) := do
  let stripped := Text.strip text
  let opener ← CommentStyle.longestOpener? style.openers stripped
  match Text.stripLeft (stripped.drop opener.length) with
  | [] => none
  | hash :: rest =>
    let after := rest.dropWhile CodePoint.isLetter
    let keyword ← Keyword.ofText? (rest.takeWhile CodePoint.isLetter)
    if hash = '#' ∧ endsKeyword style after then
      some (keyword, stripCloser style.closers (Text.strip after))
    else none

/-- The directive on a line, none for a line of code, and the warnings about it. -/
def scan (style : CommentStyle) (file : Text) (line : Nat) (text : Text) :
    Except Diagnostic (Option Directive × Log) :=
  match split? style text with
  | none => .ok (none, [])
  | some (keyword, argument) =>
    (ofArgument style file line keyword argument).map fun (directive, log) => (some directive, log)

end Directive

end Prepass

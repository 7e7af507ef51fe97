/- What is reported about a file: the kind of the problem, its text, and its place once known. -/
import Prepass.Text.Basic
namespace Prepass

inductive Diagnostic.Kind where
  | directiveSyntax
  | unbalancedBlock
  | unclosedBlock
  | expressionSyntax
  | expressionRuntime
  | user
deriving DecidableEq

/-- The stable name of a kind, by which callers tell the failures apart. -/
def Diagnostic.Kind.label : Diagnostic.Kind → Text
  | .directiveSyntax => "directive-syntax"
  | .unbalancedBlock => "unbalanced-block"
  | .unclosedBlock => "unclosed-block"
  | .expressionSyntax => "expression-syntax"
  | .expressionRuntime => "expression-runtime"
  | .user => "user"

structure Diagnostic where
  kind : Diagnostic.Kind
  text : Text
  file : Option Text := none
  line : Option Nat := none
deriving DecidableEq

namespace Diagnostic

/-- Attributes a diagnostic to a place; what is already known stays. -/
def locate (d : Diagnostic) (file : Option Text) (line : Option Nat) : Diagnostic :=
  { d with file := d.file <|> file, line := d.line <|> line }

/-- The text behind its place. -/
def message (d : Diagnostic) : Text :=
  match d.file, d.line with
  | none, _ => d.text
  | some file, none => file ++ ": " ++ d.text
  | some file, some line => file ++ ":" ++ Text.ofNat line ++ ": " ++ d.text

end Diagnostic

end Prepass

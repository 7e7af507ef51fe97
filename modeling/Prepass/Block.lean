/- Conditional blocks: which lines of a file are active. -/
import Prepass.Directive
import Prepass.Expression.Parser
namespace Prepass

/-- A block that is still open. -/
structure Frame where
  line : Nat
  /-- Whether the lines around the block are active. -/
  parentActive : Bool
  active : Bool := false
  /-- Whether a branch of the block has been taken. -/
  matched : Bool := false
  seenElse : Bool := false
deriving DecidableEq

namespace Diagnostic

def noOpenBlock (keyword : Keyword) (file : Text) (line : Nat) : Diagnostic :=
  { kind := .unbalancedBlock
    text := "#" ++ keyword.spelling ++ " without #if"
    file := some file
    line := some line }

def afterElse (keyword : Keyword) (opened : Nat) (file : Text) (line : Nat) : Diagnostic :=
  { kind := .directiveSyntax
    text := "#" ++ keyword.spelling ++ " after #else (block opened on line " ++ Text.ofNat opened ++ ")"
    file := some file
    line := some line }

/-- Blocks that the end of a file leaves open, outermost first. -/
def unclosedBlocks (opened : List Nat) (innermost : Nat) (file : Text) : Diagnostic :=
  { kind := .unclosedBlock
    text := "Unclosed conditional block(s) opened on line(s) " ++
      Text.join ", " (opened.map Text.ofNat)
    file := some file
    line := some innermost }

end Diagnostic

/-- Whether a condition holds; a failure to tell is attributed to its line. -/
def Condition.test (env : Environment) (file : Text) (line : Nat) : Condition → Except Fault Bool
  | .isSet name => .ok (env.has name)
  | .isNotSet name => .ok !env.has name
  | .holds expression =>
    (Expr.evalCondition env expression).mapError fun fault => fault.locate (some file) (some line)

/-- The open blocks, innermost first. -/
abbrev BlockStack := List Frame

namespace BlockStack

def active : BlockStack → Bool
  | [] => true
  | frame :: _ => frame.active

/-- A new block; its condition counts only where the lines around it are active. -/
def openBlock (stack : BlockStack) (line : Nat) (test : Except Fault Bool) :
    Except Fault BlockStack :=
  if stack.active then do
    let b ← test
    return { line, parentActive := true, active := b, matched := b } :: stack
  else .ok ({ line, parentActive := false } :: stack)

/-- The innermost block, which must be open and must not be in its last branch already. -/
def branching (stack : BlockStack) (file : Text) (line : Nat) (keyword : Keyword) :
    Except Fault (Frame × BlockStack) :=
  match stack with
  | [] => .error (.reported (.noOpenBlock keyword file line))
  | frame :: rest =>
    if frame.seenElse then .error (.reported (.afterElse keyword frame.line file line))
    else .ok (frame, rest)

/-- The block stack after a directive; those that are not about blocks leave it alone. Conditions
are looked at only where they can matter. -/
def process (env : Environment) (file : Text) (stack : BlockStack) (d : Directive) :
    Except Fault BlockStack :=
  match d.action with
  | .opening condition => stack.openBlock d.line (condition.test env file d.line)
  | .elseIf expression => do
    let (frame, rest) ← stack.branching file d.line .elseIf
    if frame.matched || !frame.parentActive then return { frame with active := false } :: rest
    else
      let b ← (Condition.holds expression).test env file d.line
      return { frame with active := b, matched := b } :: rest
  | .otherwise => do
    let (frame, rest) ← stack.branching file d.line .otherwise
    let active := frame.parentActive && !frame.matched
    return { frame with seenElse := true, active, matched := true } :: rest
  | .closing =>
    match stack with
    | [] => .error (.reported (.noOpenBlock .endIf file d.line))
    | _ :: rest => .ok rest
  | .set .. | .unset _ | .error _ => .ok stack

/-- At the end of a file no block may be open. -/
def close (file : Text) (stack : BlockStack) : Except Diagnostic Unit :=
  match stack with
  | [] => .ok ()
  | innermost :: _ =>
    .error (.unclosedBlocks (stack.reverse.map Frame.line) innermost.line file)

end BlockStack

end Prepass

/- Variable references in code, replaced by the literals of their values. -/
import Prepass.Environment
import Prepass.Text.Digit
import Prepass.Value.Conversion
namespace Prepass

/-- `length` characters at a column give way to a text. -/
structure Replacement where
  column : Nat
  length : Nat
  text : Text
deriving DecidableEq

namespace Replacement

/-- A text with its replacements made. They stand in column order; the text begins at the given
column. -/
def applyFrom (column : Nat) (t : Text) : List Replacement → Text
  | [] => t
  | r :: rest =>
    t.take (r.column - column) ++ r.text ++
      applyFrom (r.column + r.length) (t.drop (r.column + r.length - column)) rest

end Replacement

namespace Environment

/-- Follows `.name` accesses into dictionaries for as long as they have the name. Gives the number
of characters followed and the value reached. -/
def follow (v : Value) (t : Text) : Nat × Value :=
  match v, t with
  | .dict id entries, dot :: rest =>
    let name := rest.takeWhile CodePoint.isIdentifierChar
    if dot ≠ '.' ∨ name.isEmpty then (0, .dict id entries)
    else match Value.lookup? name entries with
      | none => (0, .dict id entries)
      | some w =>
        let (length, reached) := follow w (rest.dropWhile CodePoint.isIdentifierChar)
        (1 + name.length + length, reached)
  | v, _ => (0, v)
termination_by t.length
decreasing_by
  have := (List.dropWhile_sublist (l := rest) CodePoint.isIdentifierChar).length_le
  simp only [List.length_cons]
  omega

/-- Whether a name after this character is part of something longer, or a member. -/
def isContinuation (previous : Option CodePoint) : Bool :=
  previous.any fun (c : CodePoint) => c == '.' || c.isIdentifierChar

/-- The replacements in a text whose first `skip` characters are already dealt with. -/
def replacementsFrom (env : Environment) (column : Nat) (previous : Option CodePoint) :
    Nat → Text → Except Fault (List Replacement)
  | _, [] => .ok []
  | skip + 1, c :: rest => replacementsFrom env (column + 1) (some c) skip rest
  | 0, c :: rest =>
    if !c.isIdentifierStart then replacementsFrom env (column + 1) (some c) 0 rest
    else
      let name := (c :: rest).takeWhile CodePoint.isIdentifierChar
      if isContinuation previous || !Text.isVariableName name || !env.has name then
        replacementsFrom env (column + 1) (some c) (name.length - 1) rest
      else do
        let (length, v) := follow (env.get name) ((c :: rest).dropWhile CodePoint.isIdentifierChar)
        let literal ← v.literal
        let more ← replacementsFrom env (column + 1) (some c) (name.length + length - 1) rest
        return ⟨column, name.length + length, literal⟩ :: more

/-- The references of a text to variables that are set. A reference is a whole identifier that no
point precedes, with the member accesses that lead further into its value. -/
def replacements (env : Environment) (t : Text) : Except Fault (List Replacement) :=
  env.replacementsFrom 0 none 0 t

/-- A text with its references replaced, and the replacements made. -/
def substitute (env : Environment) (t : Text) : Except Fault (Text × List Replacement) :=
  (env.replacements t).map fun rs => (Replacement.applyFrom 0 t rs, rs)

end Environment

end Prepass

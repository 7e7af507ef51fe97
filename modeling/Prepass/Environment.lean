/- Variables and their values. -/
import Prepass.Log
import Prepass.Table
import Prepass.Value.Basic
import Prepass.Value.Display
namespace Prepass

/-- ASCII digits and capital letters. -/
def CodePoint.isVariableStart (c : CodePoint) : Bool :=
  (0x30 ≤ c.toNat && c.toNat ≤ 0x39) || (0x41 ≤ c.toNat && c.toNat ≤ 0x5A)

/-- Variables are named by two underscores, a capital letter or a digit, and more of these or of
underscores. -/
def Text.isVariableName : Text → Bool
  | a :: b :: c :: rest =>
    a == '_' && b == '_' && c.isVariableStart && rest.all fun d => d.isVariableStart || d == '_'
  | _ => false

/-- Why given variables are refused. -/
inductive BindingError where
  | notAMapping
  | nameNotText
  | invalidName (name : Text)
  | unsupported (name typeName : Text)

def BindingError.message : BindingError → Text
  | .notAMapping => "'values' must be a mapping."
  | .nameNotText => "Each name in 'values' must be a string."
  | .invalidName name => "Invalid variable name: '" ++ name ++ "'."
  | .unsupported name typeName => "Unsupported value for '" ++ name ++ "': " ++ typeName ++ "."

/-- The variables in the order of their first setting. -/
structure Environment where
  bindings : Table Text Value

namespace Environment

def empty : Environment := ⟨[]⟩

/-- The variable that holds the path of the file at work; directives cannot change it. -/
def builtIn : Text := "__FILE"

def checkBinding (name : Option Text) (v : Value) : Except BindingError Text :=
  match name with
  | none => .error .nameNotText
  | some name =>
    if !name.isVariableName then .error (.invalidName name)
    else if !v.isSupported then .error (.unsupported name v.typeName)
    else .ok name

/-- An environment of given variables, of which the last value of a name counts. A name that is no
text is given as none. -/
def ofBindings (bindings : List (Option Text × Value)) : Except BindingError Environment := do
  let pairs ← (Table.ofPairs bindings).mapM fun (name, v) => do
    let name ← checkBinding name v
    return (name, v)
  return ⟨pairs⟩

/-- A variable that is not set has the undefined value. -/
def get (env : Environment) (name : Text) : Value := (env.bindings.find? name).getD .undefined

def has (env : Environment) (name : Text) : Bool := env.bindings.contains name

def names (env : Environment) : List Text := env.bindings.map Prod.fst

def ignored (verb name : Text) : LogEntry :=
  ⟨.warning, "Ignoring attempt to " ++ verb ++ " built-in variable " ++ name⟩

/-- Sets a variable; the built-in one is left alone, with a warning. -/
def set (env : Environment) (name : Text) (v : Value) : Environment × Log :=
  if name = builtIn then (env, [ignored "set" name]) else (⟨env.bindings.insert name v⟩, [])

/-- Removes a variable; the built-in one is left alone, with a warning. -/
def unset (env : Environment) (name : Text) : Environment × Log :=
  if name = builtIn then (env, [ignored "unset" name]) else (⟨env.bindings.erase name⟩, [])

/-- Sets the built-in variable. -/
def seed (env : Environment) (v : Value) : Environment := ⟨env.bindings.insert builtIn v⟩

/-- Sets a variable that must be built in. -/
def seed? (env : Environment) (name : Text) (v : Value) : Except Text Environment :=
  if name = builtIn then .ok (env.seed v)
  else .error ("'" ++ name ++ "' is not a built-in variable.")

def display (env : Environment) : Text :=
  let entries := env.bindings.map fun (name, v) => Text.display name ++ ": " ++ v.display
  "Environment(\x7b" ++ Text.join ", " entries ++ "\x7d)"

end Environment

end Prepass

/- Values of variables and expressions. -/
import Prepass.Binary64.Basic
import Prepass.Text.Basic
namespace Prepass

/-- Tells apart lists and dictionaries of equal contents. -/
abbrev ObjectId := Nat

/-- Dictionaries are meant to have names as keys; others are held but not supported. -/
inductive Key where
  | name (t : Text)
  | number (n : Int)
deriving DecidableEq

def Key.text : Key → Text
  | .name t => t
  | .number n => Text.ofInt n

inductive ListForm where
  | list
  | tuple
deriving DecidableEq

inductive Value where
  | undefined
  | null
  | bool (b : Bool)
  /-- An exact integer that was supplied from outside; expressions make none. -/
  | int (n : Int)
  | num (x : Binary64)
  | str (t : Text)
  | list (id : ObjectId) (form : ListForm) (items : List Value)
  /-- Entries in insertion order. -/
  | dict (id : ObjectId) (entries : List (Key × Value))
  /-- A value of a type that variables cannot hold. -/
  | foreign (id : ObjectId) (typeName : Text)

instance : Inhabited Value := ⟨.undefined⟩

inductive Value.Kind where
  | undefined
  | null
  | boolean
  | number
  | string
  | object
deriving DecidableEq

def Value.Kind.label : Value.Kind → Text
  | .undefined => "undefined"
  | .null => "null"
  | .boolean => "boolean"
  | .number => "number"
  | .string => "string"
  | .object => "object"

namespace Value

def kind : Value → Kind
  | .undefined => .undefined
  | .null => .null
  | .bool _ => .boolean
  | .int _ | .num _ => .number
  | .str _ => .string
  | .list .. | .dict .. | .foreign .. => .object

/-- The name of a value's type, for complaints about values that variables cannot hold. -/
def typeName : Value → Text
  | .list _ .list _ => "list"
  | .list _ .tuple _ => "tuple"
  | .dict .. => "dict"
  | .foreign _ name => name
  | v => v.kind.label

mutual

/-- Whether a variable can hold the value. -/
def isSupported : Value → Bool
  | .list _ _ items => allSupported items
  | .dict _ entries => entriesSupported entries
  | .foreign .. => false
  | _ => true

def allSupported : List Value → Bool
  | [] => true
  | v :: rest => v.isSupported && allSupported rest

def entriesSupported : List (Key × Value) → Bool
  | [] => true
  | (.name _, v) :: rest => v.isSupported && entriesSupported rest
  | (.number _, _) :: _ => false

end

/-- The entry of a dictionary under a name. -/
def lookup? (name : Text) (entries : List (Key × Value)) : Option Value :=
  (entries.find? fun entry => entry.1 = .name name).map Prod.snd

end Value

end Prepass

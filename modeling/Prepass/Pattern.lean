/- Patterns that are searched for in a text. -/
import Prepass.Text.Blank
import Prepass.Text.Digit
namespace Prepass

inductive CharItem where
  | range (low high : Nat)
  | blank
  | decimal
  | word
deriving DecidableEq

/-- Letters, numerals and the underscore. -/
def CodePoint.isWordChar (c : CodePoint) : Bool := c.isAlphanumeric || c == '_'

def CharItem.accepts : CharItem → CodePoint → Bool
  | .range low high, c => low ≤ c.toNat && c.toNat ≤ high
  | .blank, c => c.isBlank
  | .decimal, c => c.isDecimal
  | .word, c => c.isWordChar

inductive Pattern where
  | empty
  /-- One character that one of the items accepts. -/
  | char (items : List CharItem)
  /-- At least so many characters that one of the items accepts. -/
  | run (least : Nat) (items : List CharItem)
  /-- Between a word character and another character, or an end of the text. -/
  | boundary
  | start
  /-- At the end of the text, or before its last newline. -/
  | stop
  | seq (first second : Pattern)
  | either (first second : Pattern)
deriving DecidableEq

namespace Pattern

/-- A place in a text: the character before it, and what follows. -/
structure Place where
  before : Option CodePoint
  after : Text

/-- The places that a run can reach. -/
def runPlaces (items : List CharItem) (least : Nat) (before : Option CodePoint) (t : Text) :
    List Place :=
  let here : List Place := if least = 0 then [⟨before, t⟩] else []
  match t with
  | [] => here
  | c :: rest =>
    if items.any (·.accepts c) then here ++ runPlaces items (least - 1) (some c) rest else here

/-- The places that can be reached by a match from a place. -/
def places : Pattern → Place → List Place
  | .empty, place => [place]
  | .char items, place =>
    match place.after with
    | [] => []
    | c :: rest => if items.any (·.accepts c) then [⟨some c, rest⟩] else []
  | .run least items, place => runPlaces items least place.before place.after
  | .boundary, place =>
    if place.before.any CodePoint.isWordChar != place.after.head?.any CodePoint.isWordChar then
      [place]
    else []
  | .start, place => if place.before.isNone then [place] else []
  | .stop, place =>
    if place.after = [] ∨ place.after = [CodePoint.ofChar '\n'] then [place] else []
  | .seq first second, place => (first.places place).flatMap second.places
  | .either first second, place => first.places place ++ second.places place

def searchFrom (p : Pattern) (before : Option CodePoint) (t : Text) : Bool :=
  !(p.places ⟨before, t⟩).isEmpty ||
    match t with
    | [] => false
    | c :: rest => searchFrom p (some c) rest

/-- Whether the pattern matches somewhere in a text. -/
def search (p : Pattern) (t : Text) : Bool := p.searchFrom none t

def exactly (c : CodePoint) : Pattern := .char [.range c.toNat c.toNat]

def seqOf (patterns : List Pattern) : Pattern := patterns.foldr .seq .empty

/-- The alternatives of a list that is not empty. -/
def oneOf : List Pattern → Pattern
  | [] => .empty
  | [p] => p
  | p :: rest => .either p (oneOf rest)

/-- The characters of a text, one after another. -/
def text (t : Text) : Pattern := seqOf (t.map exactly)

/-- One of several characters. -/
def anyOf (t : Text) : Pattern := .char (t.map fun c => .range c.toNat c.toNat)

end Pattern

end Prepass

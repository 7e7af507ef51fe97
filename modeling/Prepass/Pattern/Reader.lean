/- The usual notation of patterns: characters, classes, runs, anchors and alternatives. -/
import Prepass.Decimal.Basic
import Prepass.Pattern
namespace Prepass.Pattern

/-- The meaning of a character after a backslash. -/
def ofEscape (c : CodePoint) : Pattern :=
  if c = 'b' then .boundary
  else if c = 's' then .char [.blank]
  else if c = 'd' then .char [.decimal]
  else if c = 'w' then .char [.word]
  else exactly c

/-- The ranges of a class up to its closing bracket, and what follows. -/
def readClass? : Text → Option (List CharItem × Text)
  | [] => none
  | [c] => if c = ']' then some ([], []) else none
  | low :: dash :: rest =>
    if low = ']' then some ([], dash :: rest)
    else match rest with
      | high :: more =>
        if dash = '-' ∧ high ≠ ']' then
          (readClass? more).map fun (items, t) => (.range low.toNat high.toNat :: items, t)
        else (readClass? (dash :: high :: more)).map fun (items, t) =>
          (.range low.toNat low.toNat :: items, t)
      | [] => (readClass? [dash]).map fun (items, t) => (.range low.toNat low.toNat :: items, t)

/-- The number of repetitions that is asked for, if any, and what follows. -/
def readLeast? (t : Text) : Option (Nat × Text) :=
  match t with
  | [] => none
  | c :: rest =>
    if c = '*' then some (0, rest)
    else if c = '+' then some (1, rest)
    else if c = '\x7b' then
      match rest.dropWhile (CodePoint.isAsciiDigit 10) with
      | comma :: brace :: after =>
        if comma = ',' ∧ brace = '\x7d' then
          some (Text.digitsValue 10 (rest.takeWhile (CodePoint.isAsciiDigit 10)), after)
        else none
      | _ => none
    else none

/-- One item, which is not empty, and what follows. -/
def readItem? (t : Text) : Option (Pattern × Text) :=
  match t with
  | [] => none
  | c :: rest =>
    if c = '\\' then
      match rest with
      | [] => none
      | e :: rest => some (ofEscape e, rest)
    else if c = '[' then (readClass? rest).map fun (items, rest) => (.char items, rest)
    else if c = '^' then some (.start, rest)
    else if c = '$' then some (.stop, rest)
    else if (Text.ofString "().?*+\x7b\x7d]").contains c then none
    else some (exactly c, rest)

/-- The items up to the end or to a bar. -/
def readSequence? : Nat → Text → Option (Pattern × Text)
  | 0, _ => none
  | _ + 1, [] => some (.empty, [])
  | fuel + 1, c :: rest =>
    if c = '|' then some (.empty, c :: rest)
    else do
      let (item, after) ← readItem? (c :: rest)
      let (item, after) :=
        match item, readLeast? after with
        | .char items, some (least, after) => (.run least items, after)
        | item, _ => (item, after)
      let (more, after) ← readSequence? fuel after
      return (.seq item more, after)

/-- The alternatives that bars divide. -/
def readAlternatives? : Nat → Text → Option Pattern
  | 0, _ => none
  | fuel + 1, t => do
    let (first, after) ← readSequence? (t.length + 1) t
    match after with
    | [] => return first
    | _ :: after =>
      let more ← readAlternatives? fuel after
      return .either first more

/-- The pattern that a whole text denotes. -/
def read? (t : Text) : Option Pattern := readAlternatives? (t.length + 1) t

end Prepass.Pattern

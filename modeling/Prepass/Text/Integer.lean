/- Integers written in some base, with the freedoms that lenient readers grant. -/
import Prepass.Text.Blank
import Prepass.Text.Digit
namespace Prepass.Text

/-- The blanks that may stand around an integer: the information separators are not among them. -/
def isIntegerBlank (c : CodePoint) : Bool :=
  c.isBlank && !(0x1C ≤ c.toNat && c.toNat ≤ 0x1F)

/-- The value of a decimal digit of any script, or of an ASCII letter that serves as a digit. -/
def wideDigit? (c : CodePoint) : Option Nat :=
  match c.decimalValue? with
  | some n => some n
  | none =>
    if 0x41 ≤ c.toNat && c.toNat ≤ 0x5A then some (c.toNat - 0x37)
    else if 0x61 ≤ c.toNat && c.toNat ≤ 0x7A then some (c.toNat - 0x57)
    else none

def wideDigitIn? (base : Nat) (c : CodePoint) : Option Nat :=
  (wideDigit? c).filter (· < base)

/-- Groups of digits that single underscores divide. -/
def readGroups? (base : Nat) (t : Text) : Option Nat :=
  let groups := t.splitOn '_'
  if groups.any List.isEmpty then none
  else (groups.flatten.mapM (wideDigitIn? base)).map (List.foldl (fun n d => n * base + d) 0)

/-- The letters that may announce a base after a zero. -/
def baseMark : Nat → List CodePoint
  | 2 => ['b', 'B']
  | 8 => ['o', 'O']
  | 16 => ['x', 'X']
  | _ => []

/-- What follows the announcement of the base, which one underscore may close. -/
def dropBaseMark (base : Nat) (t : Text) : Text :=
  match t with
  | z :: mark :: rest =>
    if z.decimalValue? = some 0 ∧ mark ∈ baseMark base then
      match rest with
      | c :: more => if c = '_' then more else rest
      | [] => []
    else t
  | _ => t

/-- Reads a whole text as an integer of a base: blanks around it, a sign, the announcement of its
own base and single underscores between digits are allowed. -/
def readInteger? (base : Nat) (t : Text) : Option Int :=
  let core := ((t.dropWhile isIntegerBlank).reverse.dropWhile isIntegerBlank).reverse
  let unsigned (t : Text) : Option Nat := readGroups? base (dropBaseMark base t)
  match core with
  | [] => none
  | c :: rest =>
    if c = '-' then (unsigned rest).map fun n => -(n : Int)
    else if c = '+' then (unsigned rest).map Int.ofNat
    else (unsigned core).map Int.ofNat

end Prepass.Text

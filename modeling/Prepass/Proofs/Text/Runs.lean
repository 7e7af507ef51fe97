/- Runs of identifier characters, and what becomes of them where texts are put together. -/
import Mathlib.Data.List.Chain
import Prepass.Text.Digit
namespace Prepass.Text

/-- Whether a text begins with an identifier character. -/
def beginsRun (t : Text) : Bool := t.head?.any CodePoint.isIdentifierChar

def endsRun (t : Text) : Bool := t.getLast?.any CodePoint.isIdentifierChar

/-- The runs of identifier characters of a text, each as long as it can be. -/
def runs : Text → List Text
  | [] => []
  | c :: rest =>
    if c.isIdentifierChar then
      if beginsRun rest then (runs rest).modifyHead (c :: ·) else [c] :: runs rest
    else runs rest

/-- A run at the end of the one text goes on in the other. -/
def Meets (s t : Text) : Prop := s.endsRun = true ∧ t.beginsRun = true

instance decidableMeets (s t : Text) : Decidable (s.Meets t) :=
  inferInstanceAs (Decidable (_ ∧ _))

variable {c d : CodePoint} {s t : Text}

end Prepass.Text

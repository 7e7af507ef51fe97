/- What is left of a file without directives when all its comments are removed. -/
import Prepass.Proofs.Run.Policy
import Prepass.Proofs.Substitution.References
import Prepass.Proofs.Text.Runs
namespace Prepass

theorem Text.Run.beginsRun {name after : Text} (h : Text.Run name after) :
    after.beginsRun = false := by
  cases hc : after.head? with
  | none => rw [Text.beginsRun, hc]; rfl
  | some c =>
      rw [Text.beginsRun, hc]
      exact h.ends c hc

namespace Environment

/-- No run of a text is the name of a variable that is set. -/
def Unnamed (env : Environment) (t : Text) : Prop := ∀ run ∈ t.runs, env.has run = false

instance decidableUnnamed (env : Environment) (t : Text) : Decidable (env.Unnamed t) :=
  inferInstanceAs (Decidable (∀ run ∈ t.runs, env.has run = false))

variable {env : Environment}

end Environment

namespace Rendered

variable {env : Environment} {pieces : List Piece}

end Rendered

namespace OutputCall

end OutputCall

namespace Run

variable {style : CommentStyle} {file : Text}

end Run

/-- Code stays, and so does a comment that is never closed. -/
def Piece.stays (comments : List Comment) (piece : Piece) : Bool :=
  piece.comment.all fun number => comments[number]?.any (!·.closed)

namespace CommentStyle

variable {style : CommentStyle} {texts : List Text}

end CommentStyle

namespace Preprocessor

end Preprocessor

end Prepass

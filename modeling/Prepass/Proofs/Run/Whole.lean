/- A file from its first line to its end: what comes of it, by how far its lines get. -/
import Prepass.Preprocessor
import Prepass.Proofs.Outcome
namespace Prepass

theorem Run.steps_append (style : CommentStyle) (file : Text) (run : Run) (number : Nat)
    (first rest : List Line) :
    run.steps style file number (first ++ rest) =
      run.steps style file number first >>= fun mid =>
        mid.steps style file (number + first.length) rest := by
  induction first generalizing run number with
  | nil => rfl
  | cons line first ih =>
      rw [List.cons_append, steps, steps, List.length_cons]
      cases run.step style file number line with
      | error halt => rfl
      | ok next =>
          have hn : number + (first.length + 1) = number + 1 + first.length := by omega
          rw [hn]
          exact ih next (number + 1)

namespace Preprocessor

def start (p : Preprocessor) (file : Text) : Run :=
  { environment := p.environment.seed (.str (p.relativePath file))
    output := .start (p.commentStyle file) p.filter }

/-- The state in which the line of an index is reached, unless one before it fails. -/
def before (p : Preprocessor) (file source : Text) (i : Nat) : Except Halt Run :=
  (p.start file).steps (p.commentStyle file) file 1 ((Line.split source).take i)

variable {p : Preprocessor} {file source : Text}

theorem before_length :
    p.before file source (Line.split source).length =
      (p.start file).steps (p.commentStyle file) file 1 (Line.split source) := by
  rw [before, List.take_length]

theorem transform_of_error {halt : Halt}
    (h : (p.start file).steps (p.commentStyle file) file 1 (Line.split source) = .error halt) :
    p.transform file source =
      ⟨.error (halt.fault.locate (some file) none), halt.environment, halt.log.reverse⟩ := by
  have hw : (p.start file).whole (p.commentStyle file) file (Line.split source) = .error halt := by
    rw [Run.whole, h]
    rfl
  simp only [start] at hw
  simp only [transform, hw]

/-- Where all lines have been taken, only open blocks stand in the way of a result. -/
theorem transform_of_ok {final : Run}
    (h : (p.start file).steps (p.commentStyle file) file 1 (Line.split source) = .ok final) :
    p.transform file source =
      ⟨((final.blocks.close file).mapError Fault.reported).map fun _ => p.finish file source final,
        final.environment, final.log.reverse⟩ := by
  have hw : (p.start file).whole (p.commentStyle file) file (Line.split source) =
      ((final.blocks.close file).mapError fun d => final.halt (.reported d)).map fun _ => final := by
    rw [Run.whole, h]
    rfl
  simp only [start] at hw
  simp only [transform, hw]
  cases final.blocks with
  | nil => rfl
  | cons frame rest => rfl

theorem transform_eq_ok {result : TransformResult}
    (h : (p.transform file source).result = .ok result) :
    ∃ final, (p.start file).steps (p.commentStyle file) file 1 (Line.split source) = .ok final ∧
      result = p.finish file source final := by
  cases hs : (p.start file).steps (p.commentStyle file) file 1 (Line.split source) with
  | error halt =>
      rw [transform_of_error hs] at h
      cases h
  | ok final =>
      rw [transform_of_ok hs] at h
      obtain ⟨-, -, rfl⟩ := map_eq_ok.mp h
      exact ⟨final, rfl, rfl⟩

/-- One variable is set, and no comment is kept. -/
def sample : Preprocessor :=
  { environment := ⟨[("__X", .bool true)]⟩
    filter := {}
    extensions := []
    root := []
    sourceMaps := true
    directory := [] }

end Preprocessor

end Prepass

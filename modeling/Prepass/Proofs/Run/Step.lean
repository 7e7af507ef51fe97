/- What one line does to a run: a failure to read it, a line of code, or a directive. -/
import Prepass.Proofs.Run.Calls
namespace Prepass

/-- What a directive makes of the blocks and the variables, and what it says. -/
def Directive.outcome (file : Text) (blocks : BlockStack) (env : Environment) (d : Directive) :
    Except Fault (BlockStack × Environment × Log) := do
  let next ← blocks.process env file d
  (if next.active then d.execute env file else .ok (env, [])).map (Prod.mk next)

namespace Run

def warned (run : Run) (log : Log) : Run := { run with log := log.reverse ++ run.log }

theorem directive_eq (file : Text) (run : Run) (number : Nat) (line : Line) (d : Directive) :
    run.directive file number line d =
      ((d.outcome file run.blocks run.environment).mapError run.halt).map fun found =>
        { environment := found.2.1
          blocks := found.1
          output := run.output.blank number line
          log := found.2.2.reverse ++ run.log } := by
  simp only [directive, Directive.outcome]
  cases run.blocks.process run.environment file d with
  | error fault => rfl
  | ok next =>
      simp only [mapError_ok, bind, Except.bind]
      by_cases ha : next.active
      · simp only [ha, if_true]
        cases d.execute run.environment file with
        | error fault => rfl
        | ok found => rfl
      · simp only [ha]
        rfl

/-- A step, by what is found on the line. -/
theorem step_eq (style : CommentStyle) (file : Text) (run : Run) (number : Nat) (line : Line) :
    run.step style file number line =
      match Directive.scan style file number line.text with
      | .error d => .error (run.halt (.reported d))
      | .ok (some d, log) => (run.warned log).directive file number line d
      | .ok (none, _) =>
        if run.blocks.active then
          ((run.output.code run.environment number line).mapError run.halt).map fun output =>
            { run with output }
        else .ok { run with output := run.output.blank number line } := by
  cases hs : Directive.split? style line.text with
  | none => rw [step_code hs, scan_of_split?_none hs]
  | some found =>
      cases hd : Directive.scan style file number line.text with
      | error d => simp only [step, hd, mapError_error, bind, Except.bind]
      | ok read =>
          obtain ⟨d?, log⟩ := read
          cases d? with
          | some d => exact step_directive hd
          | none =>
              simp only [Directive.scan, hs] at hd
              obtain ⟨read, hr, he⟩ := map_eq_ok.mp hd
              cases he

end Run

end Prepass

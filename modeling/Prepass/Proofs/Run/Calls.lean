/- What the lines of a file ask of the output, one call for each line. -/
import Prepass.Preprocessor
import Prepass.Proofs.Outcome
import Prepass.Proofs.Output.Batch
namespace Prepass

namespace Run

/-- Active code is handed on with the variables as they are; all else leaves a blank line. -/
def call (style : CommentStyle) (run : Run) (number : Nat) (line : Line) : OutputCall :=
  if (Directive.split? style line.text).isNone ∧ run.blocks.active then
    .code run.environment number line
  else .blank number line

/-- The calls of the lines up to the one that fails, if one does. -/
def calls (style : CommentStyle) (file : Text) (run : Run) (number : Nat) :
    List Line → List OutputCall
  | [] => []
  | line :: rest =>
    run.call style number line ::
      match run.step style file number line with
      | .ok next => next.calls style file (number + 1) rest
      | .error _ => []

theorem scan_of_split?_none {style : CommentStyle} {file : Text} {number : Nat} {text : Text}
    (h : Directive.split? style text = none) :
    Directive.scan style file number text = .ok (none, []) := by
  simp only [Directive.scan, h]

theorem step_code {style : CommentStyle} {file : Text} {run : Run} {number : Nat} {line : Line}
    (hs : Directive.split? style line.text = none) :
    run.step style file number line =
      if run.blocks.active then
        ((run.output.code run.environment number line).mapError run.halt).map fun output =>
          { run with output }
      else .ok { run with output := run.output.blank number line } := by
  simp only [step, scan_of_split?_none hs]
  rfl

theorem step_directive {style : CommentStyle} {file : Text} {run : Run} {number : Nat}
    {line : Line} {d : Directive} {log : Log}
    (hs : Directive.scan style file number line.text = .ok (some d, log)) :
    run.step style file number line =
      { run with log := log.reverse ++ run.log }.directive file number line d := by
  simp only [step, hs]
  rfl

theorem directive_output {file : Text} {run next : Run} {number : Nat} {line : Line}
    {d : Directive} (h : run.directive file number line d = .ok next) :
    next.output = run.output.blank number line := by
  obtain ⟨blocks, hb, h⟩ := bind_eq_ok.mp h
  dsimp only at h
  split at h
  · obtain ⟨⟨environment, log⟩, he, h⟩ := bind_eq_ok.mp h
    cases h
    rfl
  · cases h
    rfl

/-- A step that succeeds has made its call. -/
theorem step_output {style : CommentStyle} {file : Text} {run next : Run} {number : Nat}
    {line : Line} (h : run.step style file number line = .ok next) :
    run.output.take (run.call style number line) = .ok next.output := by
  cases hs : Directive.split? style line.text with
  | none =>
      rw [step_code hs] at h
      by_cases ha : run.blocks.active
      · rw [if_pos ha] at h
        obtain ⟨output, ho, rfl⟩ := map_eq_ok.mp h
        rw [call, if_pos ⟨by rw [hs]; rfl, ha⟩]
        exact mapError_eq_ok.mp ho
      · rw [if_neg ha] at h
        cases h
        rw [call, if_neg fun hc => ha hc.2]
        rfl
  | some found =>
      have hcall : run.call style number line = .blank number line := by
        rw [call, if_neg]
        rintro ⟨hn, -⟩
        rw [hs] at hn
        cases hn
      obtain ⟨⟨d?, log⟩, hd, hstep⟩ := bind_eq_ok.mp h
      have hscan := mapError_eq_ok.mp hd
      simp only [Directive.scan, hs] at hscan
      obtain ⟨⟨d, log'⟩, ho, he⟩ := map_eq_ok.mp hscan
      cases he
      rw [hcall, Output.take, directive_output hstep]

theorem steps_output {style : CommentStyle} {file : Text} {run final : Run} {number : Nat}
    {lines : List Line} (h : run.steps style file number lines = .ok final) :
    run.output.takeAll (run.calls style file number lines) = .ok final.output := by
  induction lines generalizing run number with
  | nil =>
      cases h
      rfl
  | cons line rest ih =>
      obtain ⟨next, hn, h⟩ := bind_eq_ok.mp h
      simp only [calls, hn, Output.takeAll, step_output hn]
      exact ih h

theorem call_line (style : CommentStyle) (run : Run) (number : Nat) (line : Line) :
    (run.call style number line).line = line := by
  unfold call
  split <;> rfl

theorem call_number (style : CommentStyle) (run : Run) (number : Nat) (line : Line) :
    (run.call style number line).number = number := by
  unfold call
  split <;> rfl

/-- There is a call for each line. -/
theorem calls_line {style : CommentStyle} {file : Text} {run final : Run} {number : Nat}
    {lines : List Line} (h : run.steps style file number lines = .ok final) :
    (run.calls style file number lines).map OutputCall.line = lines := by
  induction lines generalizing run number with
  | nil => rfl
  | cons line rest ih =>
      obtain ⟨next, hn, h⟩ := bind_eq_ok.mp h
      simp only [calls, hn, List.map_cons, call_line, ih h]

theorem calls_number (style : CommentStyle) (file : Text) (run : Run) (number : Nat)
    (lines : List Line) {i : Nat} {c : OutputCall}
    (h : (run.calls style file number lines)[i]? = some c) : c.number = number + i := by
  induction lines generalizing run number i with
  | nil => cases h
  | cons line rest ih =>
      cases i with
      | zero =>
          cases h
          exact call_number style run number line
      | succ i =>
          rw [calls, List.getElem?_cons_succ] at h
          split at h
          · have := ih _ _ h
            omega
          · cases h

/-- The call of a line depends on the state in which the line is reached. -/
theorem calls_getElem? {style : CommentStyle} {file : Text} {run mid : Run} {number i : Nat}
    {lines : List Line} {line : Line} (h : run.steps style file number (lines.take i) = .ok mid)
    (hl : lines[i]? = some line) :
    (run.calls style file number lines)[i]? = some (mid.call style (number + i) line) := by
  induction lines generalizing run number i with
  | nil => cases hl
  | cons first rest ih =>
      cases i with
      | zero =>
          cases h
          cases hl
          rfl
      | succ i =>
          obtain ⟨next, hn, h⟩ := bind_eq_ok.mp h
          simp only [calls, hn, List.getElem?_cons_succ]
          rw [ih h hl, Nat.add_right_comm, Nat.add_assoc]

end Run

end Prepass

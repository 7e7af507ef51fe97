/- How the lines of a file end is handed on and has no other part in a run. -/
import Prepass.Proofs.Run.Step
namespace Prepass

def Line.bare (line : Line) : Line := { line with ending := [] }

def PendingLine.bare (line : PendingLine) : PendingLine := { line with ending := [] }

def OutputLine.bare (line : OutputLine) : OutputLine := { line with ending := [] }

theorem Line.map_bare_eq_iff {lines others : List Line} :
    lines.map bare = others.map bare ↔ lines.map text = others.map text := by
  have h (ls : List Line) : ls.map bare = (ls.map text).map fun t => ⟨t, []⟩ := by
    rw [List.map_map]
    rfl
  constructor
  · intro he
    have ht (ls : List Line) : (ls.map bare).map text = ls.map text := by
      rw [List.map_map]
      rfl
    rw [← ht lines, he, ht]
  · intro he
    rw [h, h, he]

namespace Output

/-- The output as it would be without any endings. -/
def bare (out : Output) : Output :=
  { out with
    emitted := out.emitted.map OutputLine.bare
    pending := out.pending.map PendingLine.bare }

theorem flush_bare (out : Output) : out.bare.flush = out.flush.bare := by
  simp only [flush, bare, numbering, List.map_map, List.map_append, List.map_nil]
  rfl

theorem add_bare (out : Output) (line : PendingLine) :
    out.bare.add line.bare = (out.add line).bare := by
  have hp : { out.bare with pending := line.bare :: out.bare.pending } =
      bare { out with pending := line :: out.pending } := rfl
  unfold add
  rw [hp]
  cases hc : out.scanner.current with
  | none =>
      have hn : (bare { out with pending := line :: out.pending }).scanner.current = none := hc
      simp only [hn, hc, Option.isNone_none, if_true, flush_bare]
  | some o =>
      have hn : (bare { out with pending := line :: out.pending }).scanner.current = some o := hc
      simp only [hn, hc, Option.isNone_some, Bool.false_eq_true, if_false]

theorem blank_bare (out : Output) (number : Nat) (line : Line) :
    out.bare.blank number line.bare = (out.blank number line).bare :=
  out.add_bare ⟨number, line.ending, none⟩

theorem code_bare (out : Output) (env : Environment) (number : Nat) (line : Line) :
    out.bare.code env number line.bare = (out.code env number line).map bare := by
  rw [code_eq, code_eq]
  change Except.map _ ((out.scanner.process line.text).1.pieces.mapM (Rendered.ofPiece env)) = _
  cases (out.scanner.process line.text).1.pieces.mapM (Rendered.ofPiece env) with
  | error fault => rfl
  | ok content =>
      apply congrArg Except.ok
      exact add_bare { out with
        scanner := (out.scanner.process line.text).2
        ended := (out.scanner.process line.text).1.ended.reverse ++ out.ended }
        ⟨number, line.ending, some content⟩

theorem lines_bare (out : Output) : out.bare.lines = out.lines.map OutputLine.bare := by
  rw [lines, flush_bare, lines, List.map_reverse]
  rfl

end Output

namespace Run

def bare (run : Run) : Run := { run with output := run.output.bare }

theorem eq_of_bare {run other : Run} (h : other.bare = run.bare) :
    other.environment = run.environment ∧ other.blocks = run.blocks ∧ other.log = run.log := by
  have he : other.bare.environment = run.bare.environment := by rw [h]
  have hb : other.bare.blocks = run.bare.blocks := by rw [h]
  have hl : other.bare.log = run.bare.log := by rw [h]
  exact ⟨he, hb, hl⟩

theorem directive_bare (file : Text) (run : Run) (number : Nat) (line : Line) (d : Directive) :
    run.bare.directive file number line.bare d = (run.directive file number line d).map bare := by
  have ho : run.bare.output.blank number line.bare = (run.output.blank number line).bare :=
    run.output.blank_bare number line
  rw [directive_eq, directive_eq, ho]
  change Except.map _ ((d.outcome file run.blocks run.environment).mapError run.halt) = _
  cases d.outcome file run.blocks run.environment with
  | error fault => rfl
  | ok found => rfl

theorem step_bare (style : CommentStyle) (file : Text) (run : Run) (number : Nat) (line : Line) :
    run.bare.step style file number line.bare = (run.step style file number line).map bare := by
  have hblank : run.bare.output.blank number line.bare = (run.output.blank number line).bare :=
    run.output.blank_bare number line
  have hcode : run.bare.output.code run.environment number line.bare =
      (run.output.code run.environment number line).map Output.bare :=
    run.output.code_bare run.environment number line
  have hscan : Directive.scan style file number line.bare.text =
      Directive.scan style file number line.text := rfl
  rw [step_eq, step_eq, hscan]
  cases Directive.scan style file number line.text with
  | error d => rfl
  | ok read =>
      obtain ⟨d?, log⟩ := read
      cases d? with
      | some d => exact directive_bare file (run.warned log) number line d
      | none =>
          by_cases ha : run.blocks.active
          · have hb : run.bare.blocks.active = true := ha
            simp only [ha, hb, if_true]
            change Except.map _ ((run.bare.output.code run.environment number line.bare).mapError
              run.halt) = _
            rw [hcode]
            cases run.output.code run.environment number line with
            | error fault => rfl
            | ok output => rfl
          · have hb : ¬ run.bare.blocks.active = true := ha
            simp only [ha, hb, hblank]
            rfl

theorem steps_bare (style : CommentStyle) (file : Text) (run : Run) (number : Nat)
    (lines : List Line) :
    run.bare.steps style file number (lines.map Line.bare) =
      (run.steps style file number lines).map bare := by
  induction lines generalizing run number with
  | nil => rfl
  | cons line rest ih =>
      rw [List.map_cons, steps, steps, step_bare]
      cases run.step style file number line with
      | error halt => rfl
      | ok next => exact ih next (number + 1)

/-- Lines of the same texts lead to states that differ in endings at most, or to the same halt. -/
theorem steps_bare_congr (style : CommentStyle) (file : Text) (run : Run) (number : Nat)
    {lines others : List Line} (h : others.map Line.text = lines.map Line.text) :
    (run.steps style file number others).map bare =
      (run.steps style file number lines).map bare := by
  rw [← steps_bare, ← steps_bare, Line.map_bare_eq_iff.mpr h]

theorem steps_error_of_texts {style : CommentStyle} {file : Text} {run : Run} {number : Nat}
    {lines others : List Line} {halt : Halt} (h : others.map Line.text = lines.map Line.text)
    (hs : run.steps style file number lines = .error halt) :
    run.steps style file number others = .error halt := by
  have hb := steps_bare_congr style file run number h
  rw [hs] at hb
  cases ho : run.steps style file number others with
  | error other =>
      rw [ho] at hb
      cases hb
      rfl
  | ok final =>
      rw [ho] at hb
      cases hb

theorem steps_ok_of_texts {style : CommentStyle} {file : Text} {run final : Run} {number : Nat}
    {lines others : List Line} (h : others.map Line.text = lines.map Line.text)
    (hs : run.steps style file number lines = .ok final) :
    ∃ otherFinal, run.steps style file number others = .ok otherFinal ∧
      otherFinal.bare = final.bare := by
  have hb := steps_bare_congr style file run number h
  rw [hs] at hb
  exact map_eq_ok.mp hb

end Run

end Prepass

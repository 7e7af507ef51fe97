/- Lines that are not active and conditions that cannot matter: a file may as well say otherwise. -/
import Prepass.Proofs.Line.Splitting
import Prepass.Proofs.Run.Structured
import Prepass.Proofs.Run.Whole
namespace Prepass

namespace Directive

theorem ofArgument_log {style : CommentStyle} {file : Text} {number : Nat} {keyword : Keyword}
    {argument : Text} {d : Directive} {log : Log}
    (h : ofArgument style file number keyword argument = .ok (d, log)) :
    log = [] ∨ d.action = .otherwise ∨ d.action = .closing := by
  cases keyword with
  | ifHolds | elseIf | ifSet | ifNotSet | unset =>
      simp only [ofArgument] at h
      split at h <;> cases h
      exact Or.inl rfl
  | error =>
      cases h
      exact Or.inl rfl
  | set =>
      simp only [ofArgument] at h
      split at h <;> cases h
      exact Or.inl rfl
  | otherwise =>
      cases h
      exact Or.inr (Or.inl rfl)
  | endIf =>
      cases h
      exact Or.inr (Or.inr rfl)

/-- Only directives without an argument of their own warn about one. -/
theorem warnings_eq_nil {style : CommentStyle} {text : Text} {action : Action}
    (h : action? style text = some action) (ho : action ≠ .otherwise) (hc : action ≠ .closing)
    (file : Text) (number : Nat) : warnings style file number text = [] := by
  have hs := scan_of_action? h file number
  unfold scan at hs
  split at hs
  · cases hs
  · obtain ⟨⟨d, log⟩, hd, he⟩ := map_eq_ok.mp hs
    cases he
    rcases ofArgument_log hd with hl | hl | hl
    · exact hl
    · exact absurd hl ho
    · exact absurd hl hc

/-- A line that does nothing where it is not active. -/
inductive Idle (style : CommentStyle) (text : Text) : Prop
  | code : split? style text = none → Idle style text
  | effect (effect : Effect) : action? style text = some effect.action → Idle style text

end Directive

/-- Two texts of a line between which the blocks around it make no difference. -/
inductive BlockStack.Overlooks (style : CommentStyle) : BlockStack → Text → Text → Prop
  | idle {blocks : BlockStack} {text other : Text} : blocks.active = false →
      Directive.Idle style text → Directive.Idle style other → Overlooks style blocks text other
  | opening {blocks : BlockStack} {text other : Text} {condition otherCondition : Condition} :
      blocks.active = false → Directive.action? style text = some (.opening condition) →
      Directive.action? style other = some (.opening otherCondition) →
      Overlooks style blocks text other
  | elseIf {frame : Frame} {rest : BlockStack} {text other expression otherExpression : Text} :
      frame.seenElse = false → frame.matched = true ∨ frame.parentActive = false →
      Directive.action? style text = some (.elseIf expression) →
      Directive.action? style other = some (.elseIf otherExpression) →
      Overlooks style (frame :: rest) text other

namespace Run

variable {style : CommentStyle} {file : Text} {run : Run} {number : Nat} {line other : Line}

/-- A directive that leaves the lines after it inactive is not executed. -/
theorem step_unexecuted {action : Action} {next : BlockStack}
    (h : Directive.action? style line.text = some action)
    (hw : Directive.warnings style file number line.text = [])
    (hp : run.blocks.process run.environment file ⟨number, action⟩ = .ok next)
    (ha : next.active = false) :
    run.step style file number line =
      .ok { run with blocks := next, output := run.output.blank number line } := by
  rw [step_directive (Directive.scan_of_action? h file number), hw]
  simp only [directive, List.reverse_nil, List.nil_append, hp]
  change (if next.active = true then _ else _) = _
  rw [if_neg (by simp [ha])]
  rfl

theorem step_idle (ha : run.blocks.active = false) (h : Directive.Idle style line.text) :
    run.step style file number line =
      .ok { run with output := run.output.blank number line } := by
  cases h with
  | code hs => rw [step_code hs, if_neg (by simp [ha])]
  | effect effect he =>
      have hp : run.blocks.process run.environment file ⟨number, effect.action⟩ =
          .ok run.blocks := by cases effect <;> rfl
      refine step_unexecuted he (Directive.warnings_eq_nil he ?_ ?_ file number) hp ha
      · cases effect <;> nofun
      · cases effect <;> nofun

theorem step_opening {condition : Condition} (ha : run.blocks.active = false)
    (h : Directive.action? style line.text = some (.opening condition)) :
    run.step style file number line =
      .ok { run with
        blocks := ⟨number, false, false, false, false⟩ :: run.blocks
        output := run.output.blank number line } := by
  refine step_unexecuted h (Directive.warnings_eq_nil h nofun nofun file number) ?_ rfl
  rw [BlockStack.process_opening, Condition.ask, ha]
  rfl

theorem step_elseIf {frame : Frame} {rest : BlockStack} {expression : Text}
    (hb : run.blocks = frame :: rest) (he : frame.seenElse = false)
    (hd : frame.matched = true ∨ frame.parentActive = false)
    (h : Directive.action? style line.text = some (.elseIf expression)) :
    run.step style file number line =
      .ok { run with
        blocks := frame.enter false :: rest
        output := run.output.blank number line } := by
  refine step_unexecuted h (Directive.warnings_eq_nil h nofun nofun file number) ?_ rfl
  rw [hb, BlockStack.process_elseIf he, Condition.ask, Frame.wanted_eq_false hd]
  rfl

theorem step_overlooks (he : line.ending = other.ending)
    (h : run.blocks.Overlooks style line.text other.text) :
    run.step style file number line = run.step style file number other := by
  have ho : run.output.blank number line = run.output.blank number other := by
    simp only [Output.blank, he]
  generalize hb : run.blocks = blocks at h
  cases h with
  | idle ha hl hr =>
      rw [← hb] at ha
      rw [step_idle ha hl, step_idle ha hr, ho]
  | opening ha hl hr =>
      rw [← hb] at ha
      rw [step_opening ha hl, step_opening ha hr, ho]
  | elseIf hs hd hl hr => rw [step_elseIf hb hs hd hl, step_elseIf hb hs hd hr, ho]

/-- The induction is on the lines; the blocks that count are those of the first of the two runs. -/
theorem steps_overlooks {lines others : List Line}
    (he : lines.map Line.ending = others.map Line.ending)
    (h : ∀ (i : Nat) (mid : Run) (line other : Line),
      run.steps style file number (lines.take i) = .ok mid → lines[i]? = some line →
      others[i]? = some other →
      line.text = other.text ∨ mid.blocks.Overlooks style line.text other.text) :
    run.steps style file number lines = run.steps style file number others := by
  induction lines generalizing run number others with
  | nil =>
      cases others with
      | nil => rfl
      | cons other others => cases he
  | cons line lines ih =>
      cases others with
      | nil => cases he
      | cons other others =>
          obtain ⟨hending, hendings⟩ := List.cons.inj he
          have hstep : run.step style file number line = run.step style file number other := by
            rcases h 0 run line other rfl rfl rfl with ht | hd
            · have hl : line = other := by
                cases line
                cases other
                cases ht
                cases hending
                rfl
              rw [hl]
            · exact step_overlooks hending hd
          rw [steps, steps, ← hstep]
          apply bind_congr_ok
          intro next hn
          apply ih hendings
          intro i mid line' other' hm hl ho
          refine h (i + 1) mid line' other' ?_ hl ho
          rw [List.take_succ_cons, steps, hn]
          exact hm

end Run

/-- The result for a file of another text. -/
def TransformResult.withContent (content : Text) (r : TransformResult) : TransformResult :=
  { r with map := r.map.map fun map => { map with content := some content } }

namespace Preprocessor

theorem finish_withContent (p : Preprocessor) (file source other : Text) (run : Run) :
    p.finish file other run = (p.finish file source run).withContent other := by
  simp only [finish, TransformResult.withContent]
  cases p.sourceMaps <;> rfl

/-- Two files with the same endings, whose lines differ only where the blocks of the first overlook
it, come out alike: the same code and mappings or the same fault, the same variables and the same
warnings. Only the text that the source map includes is the file's own. -/
theorem transform_overlooks {p : Preprocessor} {file source other : Text}
    (he : (Line.split source).map Line.ending = (Line.split other).map Line.ending)
    (h : ∀ (i : Nat) (run : Run) (line otherLine : Line), p.before file source i = .ok run →
      (Line.split source)[i]? = some line → (Line.split other)[i]? = some otherLine →
      line.text = otherLine.text ∨
        run.blocks.Overlooks (p.commentStyle file) line.text otherLine.text) :
    (p.transform file other).result =
        (p.transform file source).result.map (TransformResult.withContent other) ∧
      (p.transform file other).environment = (p.transform file source).environment ∧
      (p.transform file other).log = (p.transform file source).log := by
  have hs := Run.steps_overlooks he h
  cases hr : (p.start file).steps (p.commentStyle file) file 1 (Line.split source) with
  | error halt =>
      rw [transform_of_error hr, transform_of_error (hs.symm.trans hr)]
      exact ⟨rfl, rfl, rfl⟩
  | ok final =>
      rw [transform_of_ok hr, transform_of_ok (hs.symm.trans hr), finish_withContent p file source]
      refine ⟨?_, rfl, rfl⟩
      simp only
      cases final.blocks.close file with
      | error d => rfl
      | ok _ => rfl

/-- The second condition comes after a branch that is taken, and so does what follows it. -/
def overlookedLines : List Line :=
  [⟨"//#if 1", "\n"⟩, ⟨"//#elif 1", "\n"⟩, ⟨"a", "\n"⟩, ⟨"//#if 1", "\n"⟩, ⟨"//#endif", "\n"⟩,
    ⟨"//#endif", "\n"⟩]

/-- Two conditions that are no expressions, and an error. -/
def overlookedChanges : List Line :=
  [⟨"//#if 1", "\n"⟩, ⟨"//#elif )", "\n"⟩, ⟨"//#error", "\n"⟩, ⟨"//#if )", "\n"⟩,
    ⟨"//#endif", "\n"⟩, ⟨"//#endif", "\n"⟩]

theorem transform_overlooks_sample :
    overlookedLines ≠ overlookedChanges ∧
      (sample.transform "f.js" (Line.written overlookedChanges)).result =
        (sample.transform "f.js" (Line.written overlookedLines)).result.map
          (TransformResult.withContent (Line.written overlookedChanges)) ∧
      (sample.transform "f.js" (Line.written overlookedChanges)).environment =
        (sample.transform "f.js" (Line.written overlookedLines)).environment ∧
      (sample.transform "f.js" (Line.written overlookedChanges)).log =
        (sample.transform "f.js" (Line.written overlookedLines)).log := by
  have hs : Line.split (Line.written overlookedLines) = overlookedLines := by decide +kernel
  have hc : Line.split (Line.written overlookedChanges) = overlookedChanges := by decide +kernel
  have he : overlookedLines.map Line.ending = overlookedChanges.map Line.ending := by decide +kernel
  have hblocks {i : Nat} {run : Run} {blocks : BlockStack}
      (h : sample.before "f.js" (Line.written overlookedLines) i = .ok run)
      (hb : ((sample.start "f.js").steps .javascript "f.js" 1 (overlookedLines.take i)).toOption.map
        Run.blocks = some blocks) : run.blocks = blocks := by
    have hj : sample.commentStyle "f.js" = .javascript := rfl
    rw [before, hs, hj] at h
    rw [h] at hb
    exact Option.some.inj hb
  have helif : Directive.action? .javascript "//#elif 1" = some (.elseIf "1") := by decide +kernel
  have helif' : Directive.action? .javascript "//#elif )" = some (.elseIf ")") := by decide +kernel
  have hif : Directive.action? .javascript "//#if 1" = some (.opening (.holds "1")) := by
    decide +kernel
  have hif' : Directive.action? .javascript "//#if )" = some (.opening (.holds ")")) := by
    decide +kernel
  have herror : Directive.action? .javascript "//#error" = some (Effect.error []).action := by
    decide +kernel
  refine ⟨by decide +kernel, transform_overlooks (by rw [hs, hc, he]) ?_⟩
  intro i run line other hr hl ho
  rw [hs] at hl
  rw [hc] at ho
  rcases i with _ | _ | _ | _ | _ | _ | i <;> cases hl <;> cases ho
  · exact Or.inl rfl
  · have hb : run.blocks = [⟨1, true, true, true, false⟩] := hblocks hr (by decide +kernel)
    rw [hb]
    exact Or.inr (.elseIf rfl (Or.inl rfl) helif helif')
  · have hb : run.blocks = [⟨1, true, false, true, false⟩] := hblocks hr (by decide +kernel)
    rw [hb]
    exact Or.inr (.idle rfl (.code (by decide +kernel)) (.effect (.error []) herror))
  · have hb : run.blocks = [⟨1, true, false, true, false⟩] := hblocks hr (by decide +kernel)
    rw [hb]
    exact Or.inr (.opening rfl hif hif')
  · exact Or.inl rfl
  · exact Or.inl rfl

end Preprocessor

end Prepass

/- Which comments are kept, and whether a source map is asked for, has no part in the control of a
run: it decides only which comments are left in the output lines. -/
import Prepass.Proofs.Run.Lines
import Prepass.Proofs.Run.Session
namespace Prepass

namespace Output

/-- The output without what has been judged, and without the judge. -/
def unjudged (out : Output) : Output := { out with filter := {}, emitted := [] }

theorem unjudged_add (out : Output) (line : PendingLine) :
    (out.add line).unjudged = (out.unjudged.add line).unjudged := by
  unfold add
  cases hc : out.scanner.current with
  | none =>
      have hn : out.unjudged.scanner.current = none := hc
      simp only [hc, hn, Option.isNone_none, if_true]
      rfl
  | some o =>
      have hn : out.unjudged.scanner.current = some o := hc
      simp only [hc, hn, Option.isNone_some, Bool.false_eq_true, if_false]
      rfl

theorem unjudged_blank (out : Output) (number : Nat) (line : Line) :
    (out.blank number line).unjudged = (out.unjudged.blank number line).unjudged :=
  out.unjudged_add ⟨number, line.ending, none⟩

theorem unjudged_code (out : Output) (env : Environment) (number : Nat) (line : Line) :
    (out.code env number line).map unjudged = (out.unjudged.code env number line).map unjudged := by
  rw [code_eq, code_eq]
  change _ = Except.map _ (Except.map _
    ((out.scanner.process line.text).1.pieces.mapM (Rendered.ofPiece env)))
  cases (out.scanner.process line.text).1.pieces.mapM (Rendered.ofPiece env) with
  | error fault => rfl
  | ok content =>
      apply congrArg Except.ok
      exact unjudged_add { out with
        scanner := (out.scanner.process line.text).2
        ended := (out.scanner.process line.text).1.ended.reverse ++ out.ended }
        ⟨number, line.ending, some content⟩

end Output

namespace Run

variable {style : CommentStyle} {file : Text}

def unjudged (run : Run) : Run := { run with output := run.output.unjudged }

theorem eq_of_unjudged {run other : Run} (h : other.unjudged = run.unjudged) :
    other.environment = run.environment ∧ other.blocks = run.blocks ∧ other.log = run.log := by
  have he : other.unjudged.environment = run.unjudged.environment := by rw [h]
  have hb : other.unjudged.blocks = run.unjudged.blocks := by rw [h]
  have hl : other.unjudged.log = run.unjudged.log := by rw [h]
  exact ⟨he, hb, hl⟩

theorem unjudged_directive (run : Run) (number : Nat) (line : Line) (d : Directive) :
    (run.directive file number line d).map unjudged =
      (run.unjudged.directive file number line d).map unjudged := by
  have ho : (run.output.blank number line).unjudged =
      (run.unjudged.output.blank number line).unjudged := run.output.unjudged_blank number line
  rw [directive_eq, directive_eq]
  change _ = Except.map _ (Except.map _
    ((d.outcome file run.blocks run.environment).mapError run.halt))
  cases d.outcome file run.blocks run.environment with
  | error fault => rfl
  | ok found => exact congrArg (fun output => Except.ok (Run.mk _ _ output _)) ho

theorem unjudged_step (run : Run) (number : Nat) (line : Line) :
    (run.step style file number line).map unjudged =
      (run.unjudged.step style file number line).map unjudged := by
  have hblank : (run.output.blank number line).unjudged =
      (run.unjudged.output.blank number line).unjudged := run.output.unjudged_blank number line
  have hcode : (run.output.code run.environment number line).map Output.unjudged =
      (run.unjudged.output.code run.environment number line).map Output.unjudged :=
    run.output.unjudged_code run.environment number line
  rw [step_eq, step_eq]
  cases Directive.scan style file number line.text with
  | error d => rfl
  | ok read =>
      obtain ⟨d?, log⟩ := read
      cases d? with
      | some d => exact (run.warned log).unjudged_directive number line d
      | none =>
          have hb : run.unjudged.blocks = run.blocks := rfl
          simp only [hb]
          split
          · have hlift (found : Except Fault Output) :
                ((found.mapError run.halt).map fun output => { run with output }).map unjudged =
                  ((found.map Output.unjudged).mapError run.halt).map fun output =>
                    { run with output } := by
              cases found <;> rfl
            rw [hlift, hcode, ← hlift]
            rfl
          · exact congrArg (fun output => Except.ok (Run.mk _ _ output _)) hblank

/-- A step leads from states that differ in judgements to such states, or to the same halt. -/
theorem step_unjudged_congr {run other : Run} (h : other.unjudged = run.unjudged) (number : Nat)
    (line : Line) :
    (other.step style file number line).map unjudged =
      (run.step style file number line).map unjudged := by
  rw [unjudged_step, h, ← unjudged_step]

theorem steps_unjudged_congr {run other : Run} (h : other.unjudged = run.unjudged) (number : Nat)
    (lines : List Line) :
    (other.steps style file number lines).map unjudged =
        (run.steps style file number lines).map unjudged ∧
      other.calls style file number lines = run.calls style file number lines := by
  induction lines generalizing run other number with
  | nil => exact ⟨congrArg Except.ok h, rfl⟩
  | cons line rest ih =>
      obtain ⟨henv, hblocks, -⟩ := eq_of_unjudged h
      have hstep : (other.step style file number line).map unjudged =
          (run.step style file number line).map unjudged := step_unjudged_congr h number line
      have hcall : other.call style number line = run.call style number line := by
        simp only [call, henv, hblocks]
      rw [steps, steps, calls, calls, hcall]
      cases hn : run.step style file number line with
      | error halt =>
          rw [error_of_map_eq hstep hn]
          exact ⟨rfl, rfl⟩
      | ok next =>
          rw [hn] at hstep
          obtain ⟨found, ho, hf⟩ := map_eq_ok.mp hstep
          obtain ⟨hsteps, hcalls⟩ := ih hf (number + 1)
          rw [ho]
          exact ⟨hsteps, congrArg (List.cons _) hcalls⟩

end Run

namespace OutputCall

/-- The pieces of a line with their final texts, before any of them is judged. -/
def content (pieces : List Piece) : OutputCall → Except Fault (List Rendered)
  | .blank .. => .ok []
  | .code env .. => pieces.mapM (Rendered.ofPiece env)

/-- The line of a call, from those of its pieces that are kept. -/
def ofContent (keep : Piece → Bool) (call : OutputCall) (row : List Rendered) : OutputLine :=
  PendingLine.render keep ⟨call.number, call.line.ending, some row⟩

theorem render_eq_map_content (f : CommentFilter) (comments : List Comment) (pieces : List Piece)
    (call : OutputCall) :
    call.render (f.judges comments) pieces =
      (call.content pieces).map (call.ofContent (f.judges comments)) := by
  cases call with
  | blank number line => rfl
  | code env number line => exact render_code env number line f comments pieces

/-- The rows of a batch, one for each call. -/
def contents (style : CommentStyle) (calls : List OutputCall) :
    Except Fault (List (List Rendered)) :=
  forEach (fun pieces call => call.content pieces) calls (style.scanLines (texts calls)).1

theorem batch_eq_map_contents (style : CommentStyle) (f : CommentFilter) (calls : List OutputCall) :
    batch style f calls = (contents style calls).map
      (List.zipWith (ofContent (f.judges (style.scanLines (texts calls)).2)) calls) := by
  rw [batch, contents, ← forEach_map]
  congr 1
  funext pieces call
  exact render_eq_map_content f _ pieces call

theorem texts_zipWith (keep : Piece → Bool) {calls : List OutputCall} {rows : List (List Rendered)}
    (h : calls.length = rows.length) :
    (List.zipWith (ofContent keep) calls rows).map OutputLine.text =
      rows.map fun row => (row.filter fun r => keep r.piece).flatMap Rendered.text := by
  induction rows generalizing calls with
  | nil => rw [List.zipWith_nil_right, List.map_nil, List.map_nil]
  | cons row rows ih =>
      cases calls with
      | nil => cases h
      | cons call calls =>
          rw [List.zipWith_cons_cons, List.map_cons, List.map_cons, ih (Nat.succ.inj h)]
          rfl

end OutputCall

namespace CommentFilter

/-- Whatever the one filter keeps, the other one keeps too. -/
def Within (f g : CommentFilter) : Prop := ∀ c, f.keeps c = true → g.keeps c = true

theorem judges_mono {f g : CommentFilter} (h : f.Within g) {comments : List Comment} {piece : Piece}
    (hp : f.judges comments piece = true) : g.judges comments piece = true := by
  unfold judges at hp ⊢
  split
  · rfl
  · rename_i number hn
    rw [hn] at hp
    dsimp only at hp
    split
    · rename_i hc
      rw [hc] at hp
      cases hp
    · rename_i comment hc
      rw [hc] at hp
      rcases Bool.or_eq_true_iff.mp hp with ho | hk
      · rw [ho, Bool.true_or]
      · rw [h comment hk, Bool.or_true]

/-- Judgement looks at nothing of a piece but its comment. -/
theorem judges_eq (f : CommentFilter) (comments : List Comment) (piece : Piece) :
    f.judges comments piece =
      !piece.comment.any fun number => !f.judges comments ⟨0, [], some number⟩ := by
  cases hc : piece.comment with
  | none => simp only [judges, hc, Option.any_none, Bool.not_false]
  | some number => simp only [judges, hc, Option.any_some, Bool.not_not]

theorem within_add {f g : CommentFilter} {selector : Selector} (h : f.add selector = .ok g) :
    f.Within g := by
  intro c hc
  unfold keeps at hc ⊢
  unfold add at h
  split at h
  · cases h
    simp only [List.any_append, Bool.or_eq_true] at hc ⊢
    tauto
  · cases h
  · split at h
    · cases h
      rfl
    · split at h
      · cases h
        exact hc
      · split at h
        · cases h
          simp only [List.any_append, Bool.or_eq_true] at hc ⊢
          tauto
        · cases h
          simp only [List.any_append, Bool.or_eq_true] at hc ⊢
          tauto

theorem within_foldlM {f g : CommentFilter} {selectors : List Selector}
    (h : selectors.foldlM add f = .ok g) : f.Within g := by
  induction selectors generalizing f with
  | nil =>
      cases h
      exact fun _ hc => hc
  | cons selector rest ih =>
      obtain ⟨next, hn, h⟩ := bind_eq_ok.mp h
      exact fun c hc => ih h c (within_add hn c hc)

/-- Further selectors only add to what is kept. -/
theorem within_of_selectors {f g : CommentFilter} {selectors further : List Selector}
    (hf : ofSelection (.several selectors) = .ok f)
    (hg : ofSelection (.several (selectors ++ further)) = .ok g) : f.Within g := by
  rw [ofSelection, foldlM_append_of_ok hf] at hg
  exact within_foldlM hg

end CommentFilter

namespace Preprocessor

/-- The same preprocessor with another filter, and with or without source maps. -/
def withPolicy (p : Preprocessor) (f : CommentFilter) (maps : Bool) : Preprocessor :=
  { p with filter := f, sourceMaps := maps }

/-- The comments in the active code of a file. -/
def comments (p : Preprocessor) (file source : Text) : List Comment :=
  ((p.commentStyle file).scanLines (OutputCall.texts (p.calls file source))).2

/-- The pieces of each line, with their final texts, that the filter keeps. -/
def kept (p : Preprocessor) (file source : Text) : Except Fault (List (List Rendered)) :=
  (OutputCall.contents (p.commentStyle file) (p.calls file source)).map
    (List.map (List.filter fun r => p.filter.judges (p.comments file source) r.piece))

/-- Each line of one output comes from the same line of another, which consists of the pieces that
are kept there, by leaving out the pieces of some comments. -/
def Thins (p : Preprocessor) (file source less more : Text) : Prop :=
  ∃ (rows : List (List Rendered)) (dropped : Nat → Bool), p.kept file source = .ok rows ∧
    rows.length = (Line.split source).length ∧
    more = Line.written (Line.withTexts (rows.map (List.flatMap Rendered.text))
      (Line.split source)) ∧
    less = Line.written (Line.withTexts (rows.map fun row =>
      (row.filter fun r => !r.piece.comment.any dropped).flatMap Rendered.text) (Line.split source))

variable {p : Preprocessor} {file source : Text} (f : CommentFilter) (maps : Bool)

theorem steps_withPolicy (p : Preprocessor) (file source : Text) :
    (((p.withPolicy f maps).start file).steps ((p.withPolicy f maps).commentStyle file) file 1
        (Line.split source)).map Run.unjudged =
      ((p.start file).steps (p.commentStyle file) file 1 (Line.split source)).map Run.unjudged := by
  have hstart : ((p.withPolicy f maps).start file).unjudged = (p.start file).unjudged := rfl
  exact (Run.steps_unjudged_congr hstart 1 (Line.split source)).1

theorem calls_withPolicy (p : Preprocessor) (file source : Text) :
    (p.withPolicy f maps).calls file source = p.calls file source := by
  have hstart : ((p.withPolicy f maps).start file).unjudged = (p.start file).unjudged := rfl
  exact (Run.steps_unjudged_congr hstart 1 (Line.split source)).2

/-- A file fails in the same way under any policy, and leaves the same variables and warnings. -/
theorem transform_withPolicy (p : Preprocessor) (file source : Text) :
    (∀ fault, ((p.withPolicy f maps).transform file source).result = .error fault ↔
      (p.transform file source).result = .error fault) ∧
    ((p.withPolicy f maps).transform file source).environment =
      (p.transform file source).environment ∧
    ((p.withPolicy f maps).transform file source).log = (p.transform file source).log := by
  have h := p.steps_withPolicy f maps file source
  cases hs : (p.start file).steps (p.commentStyle file) file 1 (Line.split source) with
  | error halt =>
      rw [transform_of_error hs, transform_of_error (error_of_map_eq h hs)]
      exact ⟨fun fault => Iff.rfl, rfl, rfl⟩
  | ok final =>
      rw [hs] at h
      obtain ⟨other, ho, hu⟩ := map_eq_ok.mp h
      obtain ⟨henv, hblocks, hlog⟩ := Run.eq_of_unjudged hu
      rw [transform_of_ok hs, transform_of_ok ho, henv, hblocks, hlog]
      refine ⟨?_, rfl, rfl⟩
      intro fault
      cases final.blocks.close file with
      | error d => exact Iff.rfl
      | ok closed => exact ⟨nofun, nofun⟩

theorem after_withPolicy (p : Preprocessor) (files : List (Text × Text)) :
    (p.withPolicy f maps).after files = (p.after files).withPolicy f maps := by
  induction files generalizing p with
  | nil => rfl
  | cons entry rest ih =>
      obtain ⟨file, source⟩ := entry
      have hnext : (p.withPolicy f maps).next file source =
          (p.next file source).withPolicy f maps :=
        congrArg (fun env => { p with environment := env, filter := f, sourceMaps := maps })
          (p.transform_withPolicy f maps file source).2.1
      rw [after_cons, after_cons, hnext, ih]

/-- The output lines of a file are written from the pieces that are kept. -/
theorem texts_of_steps {final : Run}
    (h : (p.start file).steps (p.commentStyle file) file 1 (Line.split source) = .ok final) :
    ∃ rows, p.kept file source = .ok rows ∧
      final.output.lines.map OutputLine.text = rows.map (List.flatMap Rendered.text) := by
  have hb := batch_of_steps h
  rw [OutputCall.batch_eq_map_contents] at hb
  obtain ⟨all, hall, hlines⟩ := map_eq_ok.mp hb
  have hlen := (OutputCall.forall₂_forEach hall).length_eq
  refine ⟨_, congrArg (Except.map _) hall, ?_⟩
  rw [← hlines, OutputCall.texts_zipWith _ hlen, List.map_map]
  rfl

/-- A filter that keeps less leaves out more comments, and changes nothing else. -/
theorem kept_withPolicy {rows all : List (List Rendered)} (hf : p.filter.Within f)
    (hp : p.kept file source = .ok rows)
    (hq : (p.withPolicy f maps).kept file source = .ok all) :
    ∃ dropped : Nat → Bool, rows = all.map (List.filter fun r => !r.piece.comment.any dropped) := by
  have hcalls := p.calls_withPolicy f maps file source
  have hcomments : (p.withPolicy f maps).comments file source = p.comments file source :=
    congrArg (fun calls => ((p.commentStyle file).scanLines (OutputCall.texts calls)).2) hcalls
  rw [kept, hcalls, hcomments] at hq
  obtain ⟨contents, hc, rfl⟩ := map_eq_ok.mp hp
  obtain ⟨same, hsame, rfl⟩ := map_eq_ok.mp hq
  obtain rfl : contents = same := Except.ok.inj (hc.symm.trans hsame)
  refine ⟨fun number => !p.filter.judges (p.comments file source) ⟨0, [], some number⟩, ?_⟩
  rw [List.map_map]
  apply List.map_congr_left
  intro row _
  rw [Function.comp_apply, List.filter_filter]
  apply List.filter_congr
  intro r _
  rw [← CommentFilter.judges_eq]
  cases hj : p.filter.judges (p.comments file source) r.piece with
  | false => rfl
  | true => exact (CommentFilter.judges_mono hf hj).symm

theorem thins_withPolicy {less more : TransformResult} (hf : p.filter.Within f)
    (hp : (p.transform file source).result = .ok less)
    (hq : ((p.withPolicy f maps).transform file source).result = .ok more) :
    (p.withPolicy f maps).Thins file source less.code more.code := by
  obtain ⟨final, hs, rfl⟩ := transform_eq_ok hp
  obtain ⟨other, ho, rfl⟩ := transform_eq_ok hq
  obtain ⟨rows, hrows, htexts⟩ := texts_of_steps hs
  obtain ⟨all, hall, hmore⟩ := texts_of_steps ho
  obtain ⟨dropped, rfl⟩ := kept_withPolicy f maps hf hrows hall
  have hfirst := rewrites_of_steps hs
  have hsecond := rewrites_of_steps ho
  refine ⟨all, dropped, hall, ?_, ?_, ?_⟩
  · rw [← hsecond.length, hmore, List.length_map]
  · rw [hsecond.code, hmore]
  · rw [hfirst.code, htexts, List.map_map]
    rfl

/-- The code of a file is written by its lines and the filter, whether there is a source map or
not. -/
theorem code_withPolicy (p : Preprocessor) (file source : Text) :
    ((p.withPolicy p.filter maps).transform file source).result.map TransformResult.code =
      (p.transform file source).result.map TransformResult.code := by
  have h := p.steps_withPolicy p.filter maps file source
  cases hs : (p.start file).steps (p.commentStyle file) file 1 (Line.split source) with
  | error halt => rw [transform_of_error hs, transform_of_error (error_of_map_eq h hs)]
  | ok final =>
      rw [hs] at h
      obtain ⟨other, ho, hu⟩ := map_eq_ok.mp h
      obtain ⟨-, hblocks, -⟩ := Run.eq_of_unjudged hu
      have hlines : other.output.lines = final.output.lines := by
        have hb := batch_of_steps ho
        rw [calls_withPolicy] at hb
        exact Except.ok.inj (hb.symm.trans (batch_of_steps hs))
      rw [transform_of_ok hs, transform_of_ok ho, hblocks]
      cases final.blocks.close file with
      | error d => rfl
      | ok closed =>
          apply congrArg Except.ok
          simp only [finish, hlines]

theorem eq_withPolicy {options : Options} {q : Preprocessor} {comments : Selection}
    {sourceMaps : Option Bool} (hp : ofOptions options = .ok p)
    (hq : ofOptions { options with comments, sourceMaps } = .ok q) :
    q = p.withPolicy q.filter q.sourceMaps ∧
      CommentFilter.ofSelection options.comments = .ok p.filter ∧
      CommentFilter.ofSelection comments = .ok q.filter := by
  obtain ⟨⟨pairs, hv, henv⟩, hfilter, hext, hroot, -, hd⟩ := ofOptions_eq_ok hp
  obtain ⟨⟨others, hv', henv'⟩, hfilter', hext', hroot', -, hd'⟩ := ofOptions_eq_ok hq
  refine ⟨?_, hfilter, hfilter'⟩
  have hpairs : pairs = others := ValuesOption.bindings.inj (hv.symm.trans hv')
  have he : p.environment = q.environment :=
    Except.ok.inj (henv.symm.trans (hpairs ▸ henv'))
  have hx : p.extensions = q.extensions := Except.ok.inj (hext.symm.trans hext')
  have hr : p.root = q.root := Except.ok.inj (hroot.symm.trans hroot')
  rw [withPolicy, he, hx, hr, hd.symm.trans hd']

/-- Two preprocessors that differ in the comments they keep and in whether they make source maps
agree about each file of a session: it fails for both alike, and leaves the same variables and
warnings. Without another choice of comments the code is the same. Where the second one keeps all
that the first one keeps, as it does with further selectors, the lines of the first are those of the
second without some of the comments in them. -/
theorem session_policy {options : Options} {p q : Preprocessor} {comments : Selection}
    {sourceMaps : Option Bool} (hp : ofOptions options = .ok p)
    (hq : ofOptions { options with comments, sourceMaps } = .ok q) (files : List (Text × Text))
    (file source : Text) :
    let first := (p.after files).transform file source
    let second := (q.after files).transform file source
    (∀ fault, second.result = .error fault ↔ first.result = .error fault) ∧
      second.environment = first.environment ∧ second.log = first.log ∧
      (comments = options.comments →
        second.result.map TransformResult.code = first.result.map TransformResult.code) ∧
      (p.filter.Within q.filter → ∀ less more, first.result = .ok less → second.result = .ok more →
        (q.after files).Thins file source less.code more.code) ∧
      ∀ selectors further, options.comments = .several selectors →
        comments = .several (selectors ++ further) → p.filter.Within q.filter := by
  obtain ⟨he, hfirst, hsecond⟩ := eq_withPolicy hp hq
  have hfilter : (p.after files).filter = p.filter := by rw [after_eq]
  have hafter : q.after files = (p.after files).withPolicy q.filter q.sourceMaps := by
    rw [he, after_withPolicy]
    rfl
  intro first second
  have hs : second = ((p.after files).withPolicy q.filter q.sourceMaps).transform file source :=
    congrArg (fun r : Preprocessor => r.transform file source) hafter
  obtain ⟨hfault, henv, hlog⟩ :=
    (p.after files).transform_withPolicy q.filter q.sourceMaps file source
  rw [hs, hafter]
  refine ⟨hfault, henv, hlog, ?_, ?_, ?_⟩
  · intro hc
    rw [hc, hfirst] at hsecond
    rw [← Except.ok.inj hsecond, ← hfilter]
    exact (p.after files).code_withPolicy q.sourceMaps file source
  · intro hw less more hless hmore
    exact thins_withPolicy q.filter q.sourceMaps (hfilter ▸ hw) hless hmore
  · intro selectors further ho hc
    rw [ho] at hfirst
    rw [hc] at hsecond
    exact CommentFilter.within_of_selectors hfirst hsecond

def taggedOptions : Options := { comments := .several [.text "@a"], root := .path "/src" }

def tagged (tags : List Text) (maps : Bool) : Preprocessor :=
  { environment := ⟨[]⟩
    filter := { tags }
    extensions := .byDefault
    root := ["src"]
    sourceMaps := maps
    directory := [] }

/-- The variable of the second file is set in this one. -/
def taggedBefore : List (Text × Text) := [("/src/a.js", "//#set __A 1")]

/-- Comments with either tag, and one of them over two lines. -/
def taggedSource : Text :=
  Line.written [⟨"x /*@a*/ __A /*@b*/", "\n"⟩, ⟨"y /*@b", "\n"⟩, ⟨"z*/ __A /*@c*/ //@a", ""⟩]

theorem session_policy_tagged :
    ofOptions taggedOptions = .ok (tagged ["@a"] true) ∧
      ofOptions { taggedOptions with
        comments := .several ([.text "@a"] ++ [.text "@b"])
        sourceMaps := some false } = .ok (tagged ["@a", "@b"] false) ∧
      (((tagged ["@a"] true).after taggedBefore).transform "/src/b.js" taggedSource).result.map
        TransformResult.code = .ok "x /*@a*/ 1 \ny \n 1  //@a" ∧
      (((tagged ["@a", "@b"] false).after taggedBefore).transform "/src/b.js"
        taggedSource).result.map TransformResult.code =
          .ok "x /*@a*/ 1 /*@b*/\ny /*@b\nz*/ 1  //@a" ∧
      ((tagged ["@a", "@b"] false).after taggedBefore).Thins "/src/b.js" taggedSource
        "x /*@a*/ 1 \ny \n 1  //@a" "x /*@a*/ 1 /*@b*/\ny /*@b\nz*/ 1  //@a" := by
  have hp : ofOptions taggedOptions = .ok (tagged ["@a"] true) := rfl
  have hq : ofOptions { taggedOptions with
      comments := .several ([.text "@a"] ++ [.text "@b"])
      sourceMaps := some false } = .ok (tagged ["@a", "@b"] false) := rfl
  have hfirst : (((tagged ["@a"] true).after taggedBefore).transform "/src/b.js"
      taggedSource).result.map TransformResult.code = .ok "x /*@a*/ 1 \ny \n 1  //@a" := by
    decide +kernel
  have hsecond : (((tagged ["@a", "@b"] false).after taggedBefore).transform "/src/b.js"
      taggedSource).result.map TransformResult.code =
        .ok "x /*@a*/ 1 /*@b*/\ny /*@b\nz*/ 1  //@a" := by
    decide +kernel
  obtain ⟨-, -, -, -, hthins, hwithin⟩ :=
    session_policy hp hq taggedBefore "/src/b.js" taggedSource
  obtain ⟨less, hless, hl⟩ := map_eq_ok.mp hfirst
  obtain ⟨more, hmore, hm⟩ := map_eq_ok.mp hsecond
  refine ⟨hp, hq, hfirst, hsecond, ?_⟩
  rw [← hl, ← hm]
  exact hthins (hwithin _ _ rfl rfl) less more hless hmore

end Preprocessor

end Prepass

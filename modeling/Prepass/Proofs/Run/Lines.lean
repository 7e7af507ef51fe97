/- Every line of a file gives one line of output, which ends like it. -/
import Prepass.Proofs.Run.Endings
import Prepass.Proofs.SourceMap.Transform
import Prepass.Proofs.Substitution.OneLine
namespace Prepass

namespace Rendered

theorem exists_of_mem_mapM {env : Environment} {pieces : List Piece} {rs : List Rendered}
    (h : pieces.mapM (ofPiece env) = .ok rs) :
    ∀ r ∈ rs, ∃ piece ∈ pieces, ofPiece env piece = .ok r := by
  induction pieces generalizing rs with
  | nil =>
      cases h
      exact List.forall_mem_nil _
  | cons piece rest ih =>
      obtain ⟨r, more, hr, hm, rfl⟩ := mapM_cons_eq_ok h
      refine List.forall_mem_cons.mpr ⟨⟨piece, List.mem_cons_self, hr⟩, ?_⟩
      intro r' hr'
      obtain ⟨found, hf, ho⟩ := ih hm r' hr'
      exact ⟨found, List.mem_cons_of_mem piece hf, ho⟩

theorem oneLine_ofPiece {env : Environment} {piece : Piece} {r : Rendered}
    (hp : piece.text.OneLine) (h : ofPiece env piece = .ok r) : r.text.OneLine := by
  unfold ofPiece at h
  split at h
  · cases h
    exact hp
  · obtain ⟨⟨out, rs⟩, hs, rfl⟩ := map_eq_ok.mp h
    exact Environment.oneLine_substitute hp hs

end Rendered

namespace OutputCall

theorem oneLine_render {keep : Piece → Bool} {pieces : List Piece} {call : OutputCall}
    {line : OutputLine} (ht : call.code? = none ∨ Piece.Tiles 0 call.line.text pieces)
    (hl : call.line.text.OneLine) (h : call.render keep pieces = .ok line) : line.text.OneLine := by
  cases call with
  | blank number l =>
      cases h
      exact .nil
  | code env number l =>
      obtain ⟨kept, hk, h⟩ := bind_eq_ok.mp h
      cases h
      rcases ht with ht | ht
      · cases ht
      · refine Text.oneLine_flatMap.mpr ?_
        intro r hr
        obtain ⟨piece, hp, ho⟩ := Rendered.exists_of_mem_mapM hk r hr
        exact Rendered.oneLine_ofPiece
          (hl.subset (ht.isInfix (List.mem_of_mem_filter hp)).subset) ho

/-- Each call is answered from the pieces of its own line. -/
theorem forall₂_forEach {α : Type} {f : List Piece → OutputCall → Except Fault α}
    {calls : List OutputCall} {s : CommentScanner} {found : List α}
    (h : forEach f calls ((s.processAll (texts calls)).1.map LinePieces.pieces) = .ok found) :
    List.Forall₂ (fun call a => ∃ pieces,
      (call.code? = none ∨ Piece.Tiles 0 call.line.text pieces) ∧ f pieces call = .ok a)
      calls found := by
  induction calls generalizing s found with
  | nil =>
      cases h
      exact .nil
  | cons call rest ih =>
      obtain ⟨pieces, a, more, s', ht, hf, hm, rfl⟩ := forEach_cons_eq_ok h
      exact .cons ⟨pieces, ht, hf⟩ (ih hm)

theorem oneLine_forEach {keep : Piece → Bool} {calls : List OutputCall} {s : CommentScanner}
    {lines : List OutputLine} (hl : ∀ call ∈ calls, call.line.text.OneLine)
    (h : forEach (render keep) calls
      ((s.processAll (texts calls)).1.map LinePieces.pieces) = .ok lines) :
    ∀ line ∈ lines, line.text.OneLine := by
  have hf := forall₂_forEach h
  clear h
  induction hf with
  | nil => exact List.forall_mem_nil _
  | cons hr hrest ih =>
      obtain ⟨hfirst, hmore⟩ := List.forall_mem_cons.mp hl
      obtain ⟨pieces, ht, hr⟩ := hr
      exact List.forall_mem_cons.mpr ⟨oneLine_render ht hfirst hr, ih hmore⟩

theorem blank_forEach {keep : Piece → Bool} {calls : List OutputCall} {s : CommentScanner}
    {lines : List OutputLine} {i number : Nat} {line : Line}
    (h : forEach (render keep) calls
      ((s.processAll (texts calls)).1.map LinePieces.pieces) = .ok lines)
    (hi : calls[i]? = some (.blank number line)) : (lines.map OutputLine.text)[i]? = some [] := by
  have hf := forall₂_forEach h
  clear h
  induction hf generalizing i with
  | nil => cases hi
  | cons hr hrest ih =>
      cases i with
      | zero =>
          cases hi
          obtain ⟨pieces, ht, hr⟩ := hr
          cases hr
          rfl
      | succ i => exact ih hi

end OutputCall

namespace Preprocessor

/-- The texts of the output lines of a file, and the code that they make up. A directive leaves an
empty line, and so does a line that is reached while it is not active. -/
structure Rewrites (p : Preprocessor) (file source : Text) (outs : List Text) (code : Text) :
    Prop where
  length : outs.length = (Line.split source).length
  code : code = Line.written (Line.withTexts outs (Line.split source))
  oneLine : ∀ out ∈ outs, out.OneLine
  blank : ∀ (i : Nat) (run : Run) (line : Line), p.before file source i = .ok run →
    (Line.split source)[i]? = some line →
    Directive.split? (p.commentStyle file) line.text ≠ none ∨ run.blocks.active = false →
    outs[i]? = some []

variable {p : Preprocessor} {file source other : Text} {final : Run}

theorem batch_of_steps
    (h : (p.start file).steps (p.commentStyle file) file 1 (Line.split source) = .ok final) :
    OutputCall.batch (p.commentStyle file) p.filter (p.calls file source) =
      .ok final.output.lines := by
  have ho : (Output.start (p.commentStyle file) p.filter).takeAll (p.calls file source) =
      .ok final.output := Run.steps_output h
  rw [← Output.lines_takeAll, ho]
  rfl

theorem endings_of_steps
    (h : (p.start file).steps (p.commentStyle file) file 1 (Line.split source) = .ok final) :
    final.output.lines.map OutputLine.ending = (Line.split source).map Line.ending := by
  have hc : (p.calls file source).map OutputCall.line = Line.split source := Run.calls_line h
  rw [OutputCall.endings_forEach (batch_of_steps h), ← hc, List.map_map]
  rfl

theorem code_of_endings {outs : List OutputLine} {lines : List Line}
    (h : outs.map OutputLine.ending = lines.map Line.ending) :
    outs.flatMap (fun line => line.text ++ line.ending) =
      Line.written (Line.withTexts (outs.map OutputLine.text) lines) := by
  induction outs generalizing lines with
  | nil => rfl
  | cons out outs ih =>
      cases lines with
      | nil => cases h
      | cons line lines =>
          obtain ⟨hfirst, hrest⟩ := List.cons.inj h
          rw [List.flatMap_cons, ih hrest, hfirst, List.append_assoc]
          exact (Line.written_cons ⟨out.text, line.ending⟩ _).symm

theorem rewrites_of_steps
    (h : (p.start file).steps (p.commentStyle file) file 1 (Line.split source) = .ok final) :
    p.Rewrites file source (final.output.lines.map OutputLine.text)
      (p.finish file source final).code := by
  have hb := batch_of_steps h
  have he := endings_of_steps h
  have hc : (p.calls file source).map OutputCall.line = Line.split source := Run.calls_line h
  refine ⟨?_, code_of_endings he, ?_, ?_⟩
  · have hlen := congrArg List.length he
    rw [List.length_map, List.length_map] at hlen
    rw [List.length_map, hlen]
  · intro out ho
    obtain ⟨line, hl, rfl⟩ := List.mem_map.mp ho
    refine OutputCall.oneLine_forEach ?_ hb line hl
    intro call hcall
    apply (Line.lined_split source).oneLine
    rw [← hc]
    exact List.mem_map_of_mem hcall
  · intro i run line hr hl hd
    have hi := Run.calls_getElem? hr hl
    rw [Run.call, if_neg] at hi
    · exact OutputCall.blank_forEach hb hi
    · rintro ⟨hn, ha⟩
      rcases hd with hd | hd
      · exact hd (Option.isNone_iff_eq_none.mp hn)
      · rw [hd] at ha
        cases ha

theorem Rewrites.count {outs : List Text} {code : Text} (h : p.Rewrites file source outs code)
    {c : CodePoint} (hc : c.isBreak = true) : code.count c = source.count c := by
  rw [h.code, Line.count_written_withTexts (Line.lined_split source) h.oneLine h.length hc,
    Line.written_split]

theorem Rewrites.endings_eq_iff {outs : List Text} {code : Text}
    (h : p.Rewrites file source outs code) :
    Line.endings (Line.split code) = Line.endings (Line.split source) ↔
      (Line.withTexts outs (Line.split source)).IsChain fun line next => ¬ line.Swallows next := by
  have hl := (Line.lined_split source).withTexts h.oneLine h.length
  have he : Line.endings (Line.withTexts outs (Line.split source)) =
      Line.endings (Line.split source) := by
    rw [Line.endings, Line.map_ending_withTexts h.length, Line.endings]
  rw [h.code, Line.split_written hl, ← he]
  exact Line.endings_reread_iff _

theorem lines_of_bare {final other : Run} (h : other.bare = final.bare) :
    other.output.lines.map OutputLine.text = final.output.lines.map OutputLine.text ∧
      other.output.lines.map OutputLine.segments =
        final.output.lines.map OutputLine.segments := by
  have hl : other.output.lines.map OutputLine.bare = final.output.lines.map OutputLine.bare := by
    rw [← Output.lines_bare, ← Output.lines_bare]
    exact congrArg (fun run : Run => run.output.lines) h
  constructor
  · have ht := congrArg (List.map OutputLine.text) hl
    rwa [List.map_map, List.map_map] at ht
  · have ht := congrArg (List.map OutputLine.segments) hl
    rwa [List.map_map, List.map_map] at ht

/-- A file that comes through gives one output line for each of its lines, with the same ending and
no other line break. How the lines end changes nothing else: not the texts of the output lines, nor
the mappings, the variables, the warnings or the fault. -/
theorem transform_lines (p : Preprocessor) (file source : Text) :
    (∀ result, (p.transform file source).result = .ok result →
      ∃ outs, p.Rewrites file source outs result.code ∧
        (∀ c : CodePoint, c.isBreak = true → result.code.count c = source.count c) ∧
        ∀ other, (Line.split other).map Line.text = (Line.split source).map Line.text →
          ∃ otherResult, (p.transform file other).result = .ok otherResult ∧
            p.Rewrites file other outs otherResult.code ∧
            otherResult.map.map SourceMap.mappings = result.map.map SourceMap.mappings) ∧
      ∀ other, (Line.split other).map Line.text = (Line.split source).map Line.text →
        (∀ fault, (p.transform file source).result = .error fault →
          (p.transform file other).result = .error fault) ∧
        (p.transform file other).environment = (p.transform file source).environment ∧
        (p.transform file other).log = (p.transform file source).log := by
  constructor
  · intro result h
    obtain ⟨final, hf, rfl⟩ := transform_eq_ok h
    have hr := rewrites_of_steps hf
    refine ⟨_, hr, fun c hc => hr.count hc, ?_⟩
    intro other ht
    obtain ⟨otherFinal, ho, hb⟩ := Run.steps_ok_of_texts ht hf
    obtain ⟨htexts, hsegments⟩ := lines_of_bare hb
    obtain ⟨-, hblocks, -⟩ := Run.eq_of_bare hb
    refine ⟨p.finish file other otherFinal, ?_, htexts ▸ rewrites_of_steps ho, ?_⟩
    · rw [transform_of_ok hf] at h
      obtain ⟨closed, hc, -⟩ := map_eq_ok.mp h
      rw [transform_of_ok ho, hblocks]
      simp only [hc]
      rfl
    · simp only [finish, hsegments]
      cases p.sourceMaps <;> rfl
  · intro other ht
    cases hs : (p.start file).steps (p.commentStyle file) file 1 (Line.split source) with
    | error halt =>
        rw [transform_of_error hs, transform_of_error (Run.steps_error_of_texts ht hs)]
        exact ⟨fun fault h => h, rfl, rfl⟩
    | ok final =>
        obtain ⟨otherFinal, ho, hb⟩ := Run.steps_ok_of_texts ht hs
        obtain ⟨henv, hblocks, hlog⟩ := Run.eq_of_bare hb
        rw [transform_of_ok hs, transform_of_ok ho, hblocks, henv, hlog]
        refine ⟨?_, rfl, rfl⟩
        intro fault h
        cases hc : final.blocks.close file with
        | error d =>
            simp only [hc] at h ⊢
            exact h
        | ok closed =>
            simp only [hc] at h
            cases h

/-- Lines of all endings, some of them not active. -/
def mixedLines : List Line :=
  [⟨"__X", "\r\n"⟩, ⟨"//#if 0", "\r"⟩, ⟨"b", "\n"⟩, ⟨"//#endif", "\r\n"⟩, ⟨"c", []⟩]

theorem transform_lines_sample :
    ∃ outs result other,
      (sample.transform "f.js" (Line.written mixedLines)).result = .ok result ∧
      (sample.transform "f.js" "__X\n//#if 0\nb\n//#endif\nc").result = .ok other ∧
      sample.Rewrites "f.js" (Line.written mixedLines) outs result.code ∧
      sample.Rewrites "f.js" "__X\n//#if 0\nb\n//#endif\nc" outs other.code := by
  obtain ⟨result, hr⟩ := exists_ok_of_isSome
    (show (sample.transform "f.js" (Line.written mixedLines)).result.toOption.isSome = true by
      decide +kernel)
  obtain ⟨outs, hw, -, hothers⟩ := (transform_lines _ _ _).1 result hr
  obtain ⟨other, ho, how, -⟩ := hothers "__X\n//#if 0\nb\n//#endif\nc" (by decide +kernel)
  exact ⟨outs, result, other, hr, ho, hw, how⟩

/-- Reading the output finds the endings of the source again, exactly if no line that a lone return
ends is followed by an output line that is only a newline. -/
theorem endings_kept_iff {result : TransformResult}
    (h : (p.transform file source).result = .ok result) :
    (∃ outs, p.Rewrites file source outs result.code ∧
      (Line.endings (Line.split result.code) = Line.endings (Line.split source) ↔
        (Line.withTexts outs (Line.split source)).IsChain fun line next =>
          ¬ line.Swallows next)) ∧
      ((∀ line ∈ Line.split source, line.ending ≠ "\r") →
        Line.endings (Line.split result.code) = Line.endings (Line.split source)) := by
  obtain ⟨final, hf, rfl⟩ := transform_eq_ok h
  have hr := rewrites_of_steps hf
  have hiff := hr.endings_eq_iff
  refine ⟨⟨_, hr, hiff⟩, ?_⟩
  intro hreturn
  refine hiff.mpr (List.Pairwise.isChain (List.pairwise_of_forall_mem_list ?_))
  rintro line hl next - ⟨he, -⟩
  have hm : line.ending ∈ (Line.split source).map Line.ending := by
    rw [← Line.map_ending_withTexts hr.length]
    exact List.mem_map_of_mem hl
  obtain ⟨original, ho, heq⟩ := List.mem_map.mp hm
  exact hreturn original ho (heq.trans he)

theorem endings_kept_sample :
    ∃ result, (sample.transform "f.js" "a\r\n//b\nc").result = .ok result ∧
      Line.endings (Line.split result.code) = ["\r\n", "\n"] := by
  obtain ⟨result, hr⟩ := exists_ok_of_isSome
    (show (sample.transform "f.js" "a\r\n//b\nc").result.toOption.isSome = true by decide +kernel)
  obtain ⟨-, hkept⟩ := endings_kept_iff hr
  refine ⟨result, hr, (hkept ?_).trans ?_⟩
  · decide +kernel
  · decide +kernel

/-- A directive between a lone return and a newline: the output has one line less. -/
theorem endings_not_kept :
    ∃ result, (sample.transform "f.js" "a\r//#set __A\nb").result = .ok result ∧
      Line.endings (Line.split "a\r//#set __A\nb") = ["\r", "\n"] ∧
      Line.endings (Line.split result.code) = ["\r\n"] := by
  obtain ⟨result, hr⟩ := exists_ok_of_isSome
    (show (sample.transform "f.js" "a\r//#set __A\nb").result.toOption.isSome = true by
      decide +kernel)
  have hcode : (sample.transform "f.js" "a\r//#set __A\nb").result.toOption.map
      TransformResult.code = some "a\r\nb" := by decide +kernel
  rw [hr] at hcode
  refine ⟨result, hr, by decide +kernel, ?_⟩
  rw [Option.some.inj hcode]
  decide +kernel

end Preprocessor

end Prepass

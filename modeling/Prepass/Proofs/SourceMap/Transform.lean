/- The source map of a file tells where each of its output columns comes from. -/
import Prepass.Proofs.Run.Calls
import Prepass.Proofs.Run.Whole
import Prepass.Proofs.SourceMap.Origin
namespace Prepass

namespace OutputCall

variable {α β : Type}

theorem forEach_map (f : List Piece → OutputCall → Except Fault α) (g : OutputCall → α → β)
    (calls : List OutputCall) (scanned : List (List Piece)) :
    forEach (fun pieces call => (f pieces call).map (g call)) calls scanned =
      (forEach f calls scanned).map (List.zipWith g calls) := by
  induction calls generalizing scanned with
  | nil => rfl
  | cons call rest ih =>
      cases call with
      | blank number line =>
          rw [forEach, forEach, ih]
          cases f [] (blank number line) with
          | error fault => rfl
          | ok a =>
              cases forEach f rest scanned with
              | error fault => rfl
              | ok more => rfl
      | code env number line =>
          rw [forEach, forEach, ih]
          cases f (scanned.headD []) (code env number line) with
          | error fault => rfl
          | ok a =>
              cases forEach f rest scanned.tail with
              | error fault => rfl
              | ok more => rfl

theorem forEach_render (keep : Piece → Bool) (calls : List OutputCall)
    (scanned : List (List Piece)) :
    forEach (render keep) calls scanned =
      (forEach (fragments keep) calls scanned).map (List.zipWith ofFragments calls) := by
  rw [← forEach_map]
  congr 1
  funext pieces call
  exact render_eq_map_fragments keep pieces call

theorem forEach_cons_eq_ok {f : List Piece → OutputCall → Except Fault α} {call : OutputCall}
    {rest : List OutputCall} {s : CommentScanner} {found : List α}
    (h : forEach f (call :: rest)
      ((s.processAll (texts (call :: rest))).1.map LinePieces.pieces) = .ok found) :
    ∃ pieces a more, ∃ s' : CommentScanner,
      (call.code? = none ∨ Piece.Tiles 0 call.line.text pieces) ∧ f pieces call = .ok a ∧
        forEach f rest ((s'.processAll (texts rest)).1.map LinePieces.pieces) = .ok more ∧
        found = a :: more := by
  cases call with
  | blank number line =>
      obtain ⟨a, ha, h⟩ := bind_eq_ok.mp h
      obtain ⟨more, hm, h⟩ := bind_eq_ok.mp h
      cases h
      exact ⟨[], a, more, s, Or.inl rfl, ha, hm, rfl⟩
  | code env number line =>
      rw [texts_code, CommentScanner.processAll_cons] at h
      obtain ⟨a, ha, h⟩ := bind_eq_ok.mp h
      obtain ⟨more, hm, h⟩ := bind_eq_ok.mp h
      cases h
      exact ⟨_, a, more, _, Or.inr (s.tiles_process line.text), ha, hm, rfl⟩

/-- The fragments of each line come from the line itself. -/
theorem laid_forEach {keep : Piece → Bool} {calls : List OutputCall} {s : CommentScanner}
    {lines : List (List Fragment)}
    (h : forEach (fragments keep) calls
      ((s.processAll (texts calls)).1.map LinePieces.pieces) = .ok lines) :
    lines.length = calls.length ∧ ∀ (i : Nat) (c : OutputCall) (frags : List Fragment),
      calls[i]? = some c → lines[i]? = some frags → Fragment.Laid c.line.text 0 frags := by
  induction calls generalizing s lines with
  | nil =>
      cases h
      exact ⟨rfl, fun i c frags hc => by simp at hc⟩
  | cons call rest ih =>
      obtain ⟨pieces, frags, more, s', ht, hf, hm, rfl⟩ := forEach_cons_eq_ok h
      obtain ⟨hlen, hlaid⟩ := ih hm
      refine ⟨congrArg Nat.succ hlen, ?_⟩
      intro i c found hc hfound
      cases i with
      | zero =>
          cases hc
          cases hfound
          exact laid_fragments ht hf
      | succ i => exact hlaid i c found hc hfound

end OutputCall

namespace Preprocessor

def calls (p : Preprocessor) (file source : Text) : List OutputCall :=
  (p.start file).calls (p.commentStyle file) file 1 (Line.split source)

/-- The fragments of each output line: of the pieces of active code, those that stay. -/
def provenance (p : Preprocessor) (file source : Text) : Except Fault (List (List Fragment)) :=
  let calls := p.calls file source
  let found := (p.commentStyle file).scanLines (OutputCall.texts calls)
  OutputCall.forEach (OutputCall.fragments (p.filter.judges found.2)) calls found.1

/-- The output lines of a run are made of the fragments of its calls. -/
theorem lines_of_steps {p : Preprocessor} {file source : Text} {final : Run}
    (h : (p.start file).steps (p.commentStyle file) file 1 (Line.split source) = .ok final) :
    ∃ lines, p.provenance file source = .ok lines ∧
      final.output.lines =
        List.zipWith OutputCall.ofFragments (p.calls file source) lines := by
  have ho : (Output.start (p.commentStyle file) p.filter).takeAll (p.calls file source) =
      .ok final.output := Run.steps_output h
  have hb := Output.lines_takeAll (p.commentStyle file) p.filter (p.calls file source)
  rw [ho, OutputCall.batch, OutputCall.forEach_render] at hb
  obtain ⟨lines, hl, he⟩ := map_eq_ok.mp hb.symm
  exact ⟨lines, hl, he.symm⟩

theorem split_ne_nil {source : Text} (h : source ≠ []) : Line.split source ≠ [] := by
  fun_cases Line.split source with
  | case1 => exact absurd rfl h
  | _ => simp only [*, ne_eq, reduceCtorEq, not_false_eq_true]

/-- Decoding the mappings of a file gives marks for each output line. They lead from every column to
the character that was copied there, or to the reference whose literal stands there. -/
theorem transform_mappings {p : Preprocessor} {file source : Text} {result : TransformResult}
    (hm : p.sourceMaps = true) (hs : source ≠ [])
    (h : (p.transform file source).result = .ok result) :
    ∃ map decoded lines, result.map = some map ∧ Mappings.decode map.mappings = .ok decoded ∧
      p.provenance file source = .ok lines ∧ lines.length = (Line.split source).length ∧
      decoded.length = (Line.split source).length ∧
      result.code = (List.zipWith (fun frags (line : Line) =>
        Fragment.lineText frags ++ line.ending) lines (Line.split source)).flatten ∧
      ∀ (i : Nat) (line : Line) (frags : List Fragment), (Line.split source)[i]? = some line →
        lines[i]? = some frags → ∃ marks, decoded[i]? = some (marks.map (Mark.decoded i)) ∧
          Marked line.text frags marks := by
  obtain ⟨final, hf, rfl⟩ := transform_eq_ok h
  obtain ⟨lines, hl, ho⟩ := lines_of_steps hf
  obtain ⟨hlen, hlaid⟩ := OutputCall.laid_forEach hl
  have hcalls : (p.calls file source).map OutputCall.line = Line.split source := Run.calls_line hf
  have hn : (p.calls file source).length = (Line.split source).length := by
    rw [← hcalls, List.length_map]
  have hne : final.output.lines.map OutputLine.segments ≠ [] := by
    intro he
    have hz := congrArg List.length he
    rw [ho, List.length_map, List.length_zipWith, hlen, hn, Nat.min_self] at hz
    exact split_ne_nil hs (List.eq_nil_of_length_eq_zero hz)
  refine ⟨_, _, lines, if_pos hm, Mappings.decode_encode_lines hne, hl, hlen.trans hn, ?_, ?_, ?_⟩
  · rw [List.length_map, List.length_map, ho, List.length_zipWith, hlen, Nat.min_self, hn]
  · rw [← hcalls, List.zipWith_map_right, List.zipWith_comm]
    simp only [finish, ho, List.flatMap_def, List.map_zipWith]
    rfl
  · intro i line frags hline hfrags
    rw [← hcalls, List.getElem?_map] at hline
    obtain ⟨c, hc, rfl⟩ := Option.map_eq_some_iff.mp hline
    refine ⟨Fragment.starts 0 (Fragment.visible frags), ?_, (hlaid i c frags hc hfrags).marked⟩
    have hnum : (c.number : Int) - 1 = (i : Int) := by
      have := Run.calls_number _ _ _ _ _ hc
      omega
    rw [List.getElem?_map, List.getElem?_map, ho, List.getElem?_zipWith, hc, hfrags,
      ← Fragment.decoded_marks, ← hnum]
    rfl

/-- A reference, a comment and a dead branch. -/
def sampleSource : Text := "if (__X) go(); /* why */ end()\n// #ifset __Y\nhidden()\n// #endif\n"

theorem transform_mappings_sample :
    sample.sourceMaps = true ∧ sampleSource ≠ [] ∧
      ∃ result map decoded lines, (sample.transform "f.js" sampleSource).result = .ok result ∧
        result.map = some map ∧ Mappings.decode map.mappings = .ok decoded ∧
        sample.provenance "f.js" sampleSource = .ok lines ∧
        decoded.length = (Line.split sampleSource).length ∧
        ∃ frags marks, lines[0]? = some frags ∧ decoded[0]? = some (marks.map (Mark.decoded 0)) ∧
          Marked "if (__X) go(); /* why */ end()" frags marks := by
  have hs : sampleSource ≠ [] := by decide +kernel
  have hfirst : (Line.split sampleSource)[0]? = some ⟨"if (__X) go(); /* why */ end()", "\n"⟩ := by
    decide +kernel
  obtain ⟨result, hr⟩ := exists_ok_of_isSome
    (show (sample.transform "f.js" sampleSource).result.toOption.isSome = true by decide +kernel)
  obtain ⟨map, decoded, lines, hmap, hd, hl, hlines, hlen, -, hmarks⟩ := transform_mappings rfl hs hr
  have hpos : 0 < lines.length := by
    rw [hlines]
    decide +kernel
  obtain ⟨marks, hdecoded, hmarked⟩ := hmarks 0 _ lines[0] hfirst (List.getElem?_eq_getElem hpos)
  exact ⟨rfl, hs, result, map, decoded, lines, hr, hmap, hd, hl, hlen, lines[0], marks,
    List.getElem?_eq_getElem hpos, hdecoded, hmarked⟩

end Preprocessor

end Prepass

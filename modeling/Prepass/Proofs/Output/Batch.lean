/- Lines that wait for their comments to end come out as if all comments had been known at once. -/
import Prepass.Output
import Prepass.Proofs.Outcome
namespace Prepass

/-- What is asked of the output for one line. -/
inductive OutputCall where
  | code (env : Environment) (number : Nat) (line : Line)
  | blank (number : Nat) (line : Line)

namespace Output

def take (out : Output) : OutputCall → Except Fault Output
  | .code env number line => out.code env number line
  | .blank number line => .ok (out.blank number line)

def takeAll (out : Output) : List OutputCall → Except Fault Output
  | [] => .ok out
  | call :: rest => do
    let out ← out.take call
    out.takeAll rest

end Output

/-- Code is kept, and so is a comment that no line has ended; the filter sees the others whole. -/
def CommentFilter.judges (f : CommentFilter) (comments : List Comment) (piece : Piece) : Bool :=
  match piece.comment with
  | none => true
  | some number =>
    match comments[number]? with
    | none => false
    | some comment => !comment.closed || f.keeps comment

namespace OutputCall

def number : OutputCall → Nat
  | .code _ number _ | .blank number _ => number

def line : OutputCall → Line
  | .code _ _ line | .blank _ line => line

/-- The text that the call gives to the comment scanner. -/
def code? : OutputCall → Option Text
  | .code _ _ line => some line.text
  | .blank .. => none

def texts (calls : List OutputCall) : List Text := calls.filterMap code?

/-- The line of a call, from the pieces of its text. -/
def render (keep : Piece → Bool) (pieces : List Piece) : OutputCall → Except Fault OutputLine
  | .blank _ line => .ok ⟨[], line.ending, []⟩
  | .code env number line => do
    let kept ← (pieces.filter keep).mapM (Rendered.ofPiece env)
    let text := kept.flatMap Rendered.text
    return ⟨text, line.ending, Segment.tidy text.length (Rendered.allSegments 0 (number - 1) kept)⟩

/-- Does something for each call in order. Only calls with code take the pieces of a line. -/
def forEach {α : Type} (f : List Piece → OutputCall → Except Fault α) :
    List OutputCall → List (List Piece) → Except Fault (List α)
  | [], _ => .ok []
  | .blank number line :: rest, scanned => do
    let first ← f [] (.blank number line)
    let more ← forEach f rest scanned
    return first :: more
  | .code env number line :: rest, scanned => do
    let first ← f (scanned.headD []) (.code env number line)
    let more ← forEach f rest scanned.tail
    return first :: more

/-- All code is scanned to the end before any line is rendered. -/
def batch (style : CommentStyle) (filter : CommentFilter) (calls : List OutputCall) :
    Except Fault (List OutputLine) :=
  let found := style.scanLines (texts calls)
  forEach (render (filter.judges found.2)) calls found.1

end OutputCall

/-- What scanning a line does to the numbers of comments: those that end on it take the next ones,
and one that stays open has the number after them. -/
structure LinePieces.Numbered (line : LinePieces) (number : Nat) (isOpen : Bool) : Prop where
  closed : ∀ c ∈ line.ended, c.closed = true
  lower : ∀ p ∈ line.pieces, ∀ n ∈ p.comment, number ≤ n
  upper : ∀ p ∈ line.pieces, ∀ n ∈ p.comment,
    n < number + line.ended.length ∨ (n = number + line.ended.length ∧ isOpen = true)

namespace LinePieces

theorem Numbered.code {line : LinePieces} {number : Nat} {isOpen : Bool}
    (h : line.Numbered number isOpen) (column : Nat) (t : Text) :
    Numbered { line with pieces := ⟨column, t, none⟩ :: line.pieces } number isOpen := by
  refine ⟨h.closed, ?_, ?_⟩
  · intro p hp n hn
    rcases List.mem_cons.mp hp with rfl | hp
    · cases hn
    · exact h.lower p hp n hn
  · intro p hp n hn
    rcases List.mem_cons.mp hp with rfl | hp
    · cases hn
    · exact h.upper p hp n hn

/-- A comment that begins and ends before the rest of the line. -/
theorem Numbered.comment {line : LinePieces} {number : Nat} {isOpen : Bool}
    (h : line.Numbered (number + 1) isOpen) (column : Nat) (t opener : Text) (parts : List Text) :
    Numbered ⟨⟨column, t, some number⟩ :: line.pieces, ⟨opener, parts, true⟩ :: line.ended⟩
      number isOpen := by
  refine ⟨?_, ?_, ?_⟩
  · intro c hc
    rcases List.mem_cons.mp hc with rfl | hc
    · rfl
    · exact h.closed c hc
  · intro p hp n hn
    rcases List.mem_cons.mp hp with rfl | hp
    · obtain rfl : number = n := by simpa using hn
      exact Nat.le_refl _
    · exact Nat.le_of_succ_le (h.lower p hp n hn)
  · intro p hp n hn
    rcases List.mem_cons.mp hp with rfl | hp
    · obtain rfl : number = n := by simpa using hn
      left
      simp only [List.length_cons]
      omega
    · simp only [List.length_cons]
      rcases h.upper p hp n hn with hu | ⟨hu, ho⟩
      · exact Or.inl (by omega)
      · exact Or.inr ⟨by omega, ho⟩

theorem numbered_ofSpans (column number : Nat) (spans : List Span) :
    (ofSpans column number spans).1.Numbered number (ofSpans column number spans).2.isSome := by
  fun_induction ofSpans column number spans with
  | case1 column number => exact ⟨by simp, by simp, by simp⟩
  | case2 column number t rest line current heq ih =>
      rw [heq] at ih
      exact ih.code column t
  | case3 column number opener t rest line current heq ih =>
      rw [heq] at ih
      exact ih.comment column t opener [t]
  | case4 column number delimiters t rest line current heq ih =>
      rw [heq] at ih
      exact ih.comment column t delimiters.opener [t]
  | case5 column number delimiters t rest =>
      exact ⟨by simp, by simp, by simp⟩

end LinePieces

namespace CommentScanner

theorem scanCode_numbered (s : CommentScanner) (column : Nat) (before : Option CodePoint)
    (t : Text) :
    (s.scanCode column before t).1.Numbered s.count (s.scanCode column before t).2.current.isSome :=
  LinePieces.numbered_ofSpans _ _ _

theorem scanCode_count (s : CommentScanner) (column : Nat) (before : Option CodePoint) (t : Text) :
    (s.scanCode column before t).2.count =
      s.count + (s.scanCode column before t).1.ended.length := rfl

/-- The next line, of which the part up to a closer belongs to a comment that was open. -/
theorem process_closing {s : CommentScanner} {o : OpenComment} {line inside : Text}
    (hs : s.current = some o) (hi : upToCloser? o.delimiters.closer line = some inside) :
    s.process line =
      let (o', first) : OpenComment × List Piece :=
        if inside.isEmpty then (o, []) else (o.addPart inside, [⟨0, inside, some s.count⟩])
      let r := { s with count := s.count + 1, current := none }.scanCode inside.length
        inside.getLast? (line.drop inside.length)
      (⟨first ++ r.1.pieces, o'.comment true :: r.1.ended⟩, r.2) := by
  simp only [process, hs, hi]

theorem process_staying {s : CommentScanner} {o : OpenComment} {line : Text}
    (hs : s.current = some o) (hi : upToCloser? o.delimiters.closer line = none) :
    s.process line =
      ({ pieces := if line.isEmpty then [] else [⟨0, line, some s.count⟩] },
        { s with current := some (o.addPart line) }) := by
  simp only [process, hs, hi]

theorem process_outside {s : CommentScanner} (hs : s.current = none) (line : Text) :
    s.process line = s.scanCode 0 none line := by
  simp only [process, hs]

theorem processAll_cons (s : CommentScanner) (line : Text) (rest : List Text) :
    s.processAll (line :: rest) =
      ((s.process line).1 :: ((s.process line).2.processAll rest).1,
        ((s.process line).2.processAll rest).2) := rfl

/-- The comments that end from here on, and the one that never ends. -/
def comments (s : CommentScanner) (texts : List Text) : List Comment :=
  (s.processAll texts).1.flatMap LinePieces.ended ++ (s.processAll texts).2.unclosed

theorem comments_nil (s : CommentScanner) : s.comments [] = s.unclosed := rfl

theorem comments_cons (s : CommentScanner) (line : Text) (rest : List Text) :
    s.comments (line :: rest) = (s.process line).1.ended ++ (s.process line).2.comments rest := by
  simp only [comments, processAll_cons, List.flatMap_cons, List.append_assoc]

theorem process_count (s : CommentScanner) (line : Text) :
    (s.process line).2.count = s.count + (s.process line).1.ended.length := by
  cases hs : s.current with
  | none =>
      rw [process_outside hs]
      exact s.scanCode_count 0 none line
  | some o =>
      cases hi : upToCloser? o.delimiters.closer line with
      | none => simp only [process_staying hs hi, List.length_nil, Nat.add_zero]
      | some inside =>
          simp only [process_closing hs hi, scanCode_count, List.length_cons]
          omega

/-- A line that ends no comment leaves an open one open. -/
theorem process_open {s : CommentScanner} {o : OpenComment} (hs : s.current = some o)
    (line : Text) :
    0 < (s.process line).1.ended.length ∨
      ((s.process line).1.ended = [] ∧ (s.process line).2.current.isSome = true) := by
  cases hi : upToCloser? o.delimiters.closer line with
  | none =>
      rw [process_staying hs hi]
      exact Or.inr ⟨rfl, rfl⟩
  | some inside =>
      rw [process_closing hs hi]
      exact Or.inl (Nat.succ_pos _)

theorem process_numbered (s : CommentScanner) (line : Text) :
    (s.process line).1.Numbered s.count (s.process line).2.current.isSome := by
  cases hs : s.current with
  | none =>
      rw [process_outside hs]
      exact s.scanCode_numbered 0 none line
  | some o =>
      cases hi : upToCloser? o.delimiters.closer line with
      | none =>
          rw [process_staying hs hi]
          refine ⟨by simp, ?_, ?_⟩ <;> (split <;> simp)
      | some inside =>
          rw [process_closing hs hi]
          have h := scanCode_numbered { s with count := s.count + 1, current := none } inside.length
            inside.getLast? (line.drop inside.length)
          by_cases he : inside.isEmpty
          · have hc := h.comment 0 inside o.delimiters.opener o.parts.reverse
            simp only [he, if_true]
            exact ⟨hc.closed, fun p hp => hc.lower p (List.mem_cons_of_mem _ hp),
              fun p hp => hc.upper p (List.mem_cons_of_mem _ hp)⟩
          · simp only [he]
            exact h.comment 0 inside o.delimiters.opener (o.addPart inside).parts.reverse

end CommentScanner

namespace Rendered

theorem piece_of_ofPiece {env : Environment} {piece : Piece} {r : Rendered}
    (h : ofPiece env piece = .ok r) : r.piece = piece := by
  unfold ofPiece at h
  split at h
  · cases h
    rfl
  · cases hs : env.substitute piece.text with
    | error fault =>
        rw [hs] at h
        cases h
    | ok pair =>
        rw [hs] at h
        cases h
        rfl

theorem ofPiece_comment {env : Environment} {piece : Piece} {n : Nat}
    (h : piece.comment = some n) : ofPiece env piece = .ok ⟨piece, piece.text, []⟩ := by
  simp only [ofPiece, h]

/-- Only code can fail, and no judgement drops code, so it does not matter whether pieces are judged
before or after they are rendered. -/
theorem mapM_filter_judges (env : Environment) (f : CommentFilter) (comments : List Comment)
    (pieces : List Piece) :
    (pieces.filter (f.judges comments)).mapM (ofPiece env) =
      (pieces.mapM (ofPiece env)).map (List.filter fun r => f.judges comments r.piece) := by
  induction pieces with
  | nil => rfl
  | cons piece rest ih =>
      by_cases hk : f.judges comments piece
      · rw [List.filter_cons_of_pos hk, List.mapM_cons, List.mapM_cons, ih]
        cases h : ofPiece env piece with
        | error fault => rfl
        | ok r =>
            have hr : f.judges comments r.piece = true := by rwa [piece_of_ofPiece h]
            cases hm : rest.mapM (ofPiece env) with
            | error fault => rfl
            | ok rs =>
                change Except.ok (r :: rs.filter _) = Except.ok ((r :: rs).filter _)
                simp only [List.filter_cons, hr, if_true]
      · rw [List.filter_cons_of_neg hk, List.mapM_cons, ih]
        cases hc : piece.comment with
        | none => simp only [CommentFilter.judges, hc, not_true_eq_false] at hk
        | some n =>
            rw [ofPiece_comment hc]
            cases hm : rest.mapM (ofPiece env) with
            | error fault => rfl
            | ok rs =>
                change Except.ok (rs.filter _) = Except.ok ((⟨piece, piece.text, []⟩ :: rs).filter _)
                simp only [List.filter_cons, hk, Bool.false_eq_true, if_false]

theorem pieces_of_mapM {env : Environment} {pieces : List Piece} {rs : List Rendered}
    (h : pieces.mapM (ofPiece env) = .ok rs) : rs.map Rendered.piece = pieces := by
  induction pieces generalizing rs with
  | nil =>
      cases h
      rfl
  | cons piece rest ih =>
      rw [List.mapM_cons] at h
      cases hp : ofPiece env piece with
      | error fault =>
          rw [hp] at h
          cases h
      | ok r =>
          cases hm : rest.mapM (ofPiece env) with
          | error fault =>
              rw [hp, hm] at h
              cases h
          | ok more =>
              rw [hp, hm] at h
              cases h
              rw [List.map_cons, piece_of_ofPiece hp, ih hm]

end Rendered

theorem OutputCall.render_code (env : Environment) (number : Nat) (line : Line)
    (f : CommentFilter) (comments : List Comment) (pieces : List Piece) :
    (code env number line).render (f.judges comments) pieces =
      (pieces.mapM (Rendered.ofPiece env)).map fun content =>
        PendingLine.render (f.judges comments) ⟨number, line.ending, some content⟩ := by
  simp only [render, Rendered.mapM_filter_judges]
  cases pieces.mapM (Rendered.ofPiece env) with
  | error fault => rfl
  | ok content => rfl

namespace OutputCall

theorem texts_nil : texts [] = [] := rfl

theorem texts_blank (number : Nat) (line : Line) (rest : List OutputCall) :
    texts (blank number line :: rest) = texts rest := rfl

theorem texts_code (env : Environment) (number : Nat) (line : Line) (rest : List OutputCall) :
    texts (code env number line :: rest) = line.text :: texts rest := rfl

theorem forEach_render_blank (keep : Piece → Bool) (number : Nat) (line : Line)
    (rest : List OutputCall) (scanned : List (List Piece)) :
    forEach (render keep) (blank number line :: rest) scanned =
      (forEach (render keep) rest scanned).map (⟨[], line.ending, []⟩ :: ·) := by
  rw [forEach]
  cases forEach (render keep) rest scanned with
  | error fault => rfl
  | ok more => rfl

theorem forEach_render_code (f : CommentFilter) (comments : List Comment) (env : Environment)
    (number : Nat) (line : Line) (rest : List OutputCall) (pieces : List Piece)
    (scanned : List (List Piece)) :
    forEach (render (f.judges comments)) (code env number line :: rest) (pieces :: scanned) =
      (pieces.mapM (Rendered.ofPiece env)).bind fun content =>
        (forEach (render (f.judges comments)) rest scanned).map
          (PendingLine.render (f.judges comments) ⟨number, line.ending, some content⟩ :: ·) := by
  rw [forEach, List.headD_cons, List.tail_cons, render_code]
  cases pieces.mapM (Rendered.ofPiece env) with
  | error fault => rfl
  | ok content =>
      cases forEach (render (f.judges comments)) rest scanned with
      | error fault => rfl
      | ok more => rfl

end OutputCall

theorem PendingLine.render_blank (keep : Piece → Bool) (number : Nat) (ending : Text) :
    PendingLine.render keep ⟨number, ending, none⟩ = ⟨[], ending, []⟩ := rfl

/-- A line looks the same to two judges who agree about its pieces. -/
theorem PendingLine.render_congr {keep keep' : Piece → Bool} {line : PendingLine}
    (h : ∀ r ∈ line.content.getD [], keep r.piece = keep' r.piece) :
    line.render keep = line.render keep' := by
  simp only [render, List.filter_congr h]

namespace Output

/-- The lines taken so far as a judge of pieces sees them, in order. -/
def settled (keep : Piece → Bool) (out : Output) : List OutputLine :=
  (out.pending.map (PendingLine.render keep) ++ out.emitted).reverse

/-- Waiting lines hold pieces of comments that ended since the last line was emitted, and of the
one that is open. `past` are all comments that have ended. -/
structure Waits (out : Output) (past : List Comment) : Prop where
  count : out.scanner.count = past.length
  recent : ∃ older, past = older ++ out.ended.reverse
  closed : ∀ c ∈ past, c.closed = true
  lower : ∀ line ∈ out.pending, ∀ r ∈ line.content.getD [], ∀ n ∈ r.piece.comment,
    past.length - out.ended.length ≤ n
  upper : ∀ line ∈ out.pending, ∀ r ∈ line.content.getD [], ∀ n ∈ r.piece.comment,
    n < past.length ∨ (n = past.length ∧ out.scanner.current.isSome = true)

theorem waits_start (style : CommentStyle) (filter : CommentFilter) :
    (start style filter).Waits [] :=
  ⟨rfl, ⟨[], rfl⟩, by simp, by simp [start], by simp [start]⟩

theorem Waits.find?_numbering {out : Output} {past : List Comment} (h : out.Waits past) (n : Nat)
    (hn : past.length - out.ended.length ≤ n) : out.numbering.find? n = past[n]? := by
  obtain ⟨older, ho⟩ := h.recent
  have hl : past.length = older.length + out.ended.length := by
    rw [ho, List.length_append, List.length_reverse]
  have hb : out.numbering.base = older.length := by
    simp only [numbering, h.count, hl]
    omega
  have hle : older.length ≤ n := by omega
  simp only [CommentNumbering.find?, hb, Nat.not_lt.mpr hle, if_false]
  rw [ho, List.getElem?_append_right hle]
  simp only [numbering, List.getElem?_toArray]

/-- Once no comment is open, or no more line comes, judging by what has ended so far is final. -/
theorem Waits.keepsPiece_eq {out : Output} {past later : List Comment} (h : out.Waits past)
    (hopen : out.scanner.current.isSome → ∃ c ∈ later.head?, c.closed = false)
    {line : PendingLine} (hl : line ∈ out.pending) {r : Rendered} (hr : r ∈ line.content.getD []) :
    out.filter.keepsPiece out.numbering r.piece = out.filter.judges (past ++ later) r.piece := by
  cases hc : r.piece.comment with
  | none => simp only [CommentFilter.keepsPiece, CommentFilter.judges, hc, Option.bind_none]
  | some n =>
      simp only [CommentFilter.keepsPiece, CommentFilter.judges, hc, Option.bind_some,
        h.find?_numbering n (h.lower line hl r hr n hc)]
      rcases h.upper line hl r hr n hc with hn | ⟨rfl, ho⟩
      · have hm : past[n].closed = true := h.closed _ (List.getElem_mem hn)
        rw [List.getElem?_append_left hn, List.getElem?_eq_getElem hn]
        simp only [hm, Bool.not_true, Bool.false_or]
      · obtain ⟨c, hc, hcl⟩ := hopen ho
        rw [List.getElem?_append_right (Nat.le_refl _), Nat.sub_self, ← List.head?_eq_getElem?, hc]
        simp only [List.getElem?_eq_none (Nat.le_refl _), hcl, Bool.not_false, Bool.true_or]

theorem Waits.flush_emitted {out : Output} {past : List Comment} (h : out.Waits past)
    (later : List Comment)
    (hopen : out.scanner.current.isSome → ∃ c ∈ later.head?, c.closed = false) :
    out.flush.emitted.reverse = out.settled (out.filter.judges (past ++ later)) := by
  simp only [flush, settled, List.reverse_append, List.append_cancel_left_eq, List.reverse_inj]
  apply List.map_congr_left
  intro line hl
  exact PendingLine.render_congr fun r hr => h.keepsPiece_eq hopen hl hr

theorem Waits.flush {out : Output} {past : List Comment} (h : out.Waits past) :
    out.flush.Waits past := by
  refine ⟨h.count, ⟨past, ?_⟩, h.closed, ?_, ?_⟩
  · simp only [Output.flush, List.reverse_nil, List.append_nil]
  · simp [Output.flush]
  · simp [Output.flush]

theorem Waits.add (out : Output) (line : PendingLine) {past : List Comment}
    (h : Waits { out with pending := line :: out.pending } past) (later : List Comment) :
    (out.add line).Waits past ∧
      (out.add line).settled (out.filter.judges (past ++ later)) =
        out.settled (out.filter.judges (past ++ later)) ++
          [line.render (out.filter.judges (past ++ later))] := by
  have hs : settled (out.filter.judges (past ++ later))
        { out with pending := line :: out.pending } =
      out.settled (out.filter.judges (past ++ later)) ++
        [line.render (out.filter.judges (past ++ later))] := by
    simp only [settled, List.map_cons, List.cons_append, List.reverse_cons]
  unfold Output.add
  by_cases hc : out.scanner.current.isNone
  · have he := h.flush_emitted later fun ho => by
      rw [Option.isNone_iff_eq_none.mp hc] at ho
      cases ho
    simp only [hc, if_true]
    refine ⟨h.flush, ?_⟩
    rw [← hs, ← he]
    simp only [settled, Output.flush, List.map_nil, List.nil_append]
  · simp only [hc]
    exact ⟨h, hs⟩

theorem code_eq (out : Output) (env : Environment) (number : Nat) (line : Line) :
    out.code env number line =
      ((out.scanner.process line.text).1.pieces.mapM (Rendered.ofPiece env)).map fun content =>
        { out with
          scanner := (out.scanner.process line.text).2
          ended := (out.scanner.process line.text).1.ended.reverse ++ out.ended }.add
          ⟨number, line.ending, some content⟩ := by
  unfold code
  cases h : (out.scanner.process line.text).1.pieces.mapM (Rendered.ofPiece env) with
  | error fault =>
      simp only [h]
      rfl
  | ok content =>
      simp only [h]
      rfl

/-- Waiting lines keep their numbers while a line of code is scanned, and its own pieces have
numbers that are new or those of the open comment. -/
theorem Waits.scan {out : Output} {past : List Comment} (h : out.Waits past) (line : Line)
    {env : Environment} {content : List Rendered} (number : Nat)
    (hm : (out.scanner.process line.text).1.pieces.mapM (Rendered.ofPiece env) = .ok content) :
    Waits { out with
      scanner := (out.scanner.process line.text).2
      ended := (out.scanner.process line.text).1.ended.reverse ++ out.ended
      pending := ⟨number, line.ending, some content⟩ :: out.pending }
      (past ++ (out.scanner.process line.text).1.ended) := by
  have hn := out.scanner.process_numbered line.text
  have hc := out.scanner.process_count line.text
  obtain ⟨older, ho⟩ := h.recent
  have hp : ∀ r ∈ content, r.piece ∈ (out.scanner.process line.text).1.pieces := by
    intro r hr
    rw [← Rendered.pieces_of_mapM hm]
    exact List.mem_map_of_mem hr
  refine ⟨?_, ⟨older, ?_⟩, ?_, ?_, ?_⟩
  · rw [hc, h.count, List.length_append]
  · rw [List.reverse_append, List.reverse_reverse, ← List.append_assoc, ← ho]
  · intro c hc
    rcases List.mem_append.mp hc with hc | hc
    · exact h.closed c hc
    · exact hn.closed c hc
  · intro pend hpend r hr n hrn
    simp only [List.length_append, List.length_reverse]
    rcases List.mem_cons.mp hpend with rfl | hpend
    · have hl := hn.lower r.piece (hp r hr) n hrn
      rw [h.count] at hl
      omega
    · have hl := h.lower pend hpend r hr n hrn
      omega
  · intro pend hpend r hr n hrn
    simp only [List.length_append]
    rcases List.mem_cons.mp hpend with rfl | hpend
    · have hu := hn.upper r.piece (hp r hr) n hrn
      rwa [h.count] at hu
    · rcases h.upper pend hpend r hr n hrn with hu | ⟨hu, hs⟩
      · exact Or.inl (by omega)
      · cases hcur : out.scanner.current with
        | none =>
            rw [hcur] at hs
            cases hs
        | some o =>
            rw [← h.count] at hu
            have hstay := out.scanner.process_open hcur line.text
            rcases hstay with hlt | ⟨he, hsome⟩
            · rw [h.count] at hu
              exact Or.inl (by omega)
            · exact Or.inr ⟨by rw [hu, h.count, he]; simp, hsome⟩

theorem Waits.blank {out : Output} {past : List Comment} (h : out.Waits past) (number : Nat)
    (ending : Text) : Waits { out with pending := ⟨number, ending, none⟩ :: out.pending } past := by
  refine ⟨h.count, h.recent, h.closed, ?_, ?_⟩
  · intro pend hpend r hr
    rcases List.mem_cons.mp hpend with rfl | hpend
    · cases hr
    · exact h.lower pend hpend r hr
  · intro pend hpend r hr
    rcases List.mem_cons.mp hpend with rfl | hpend
    · cases hr
    · exact h.upper pend hpend r hr

@[simp] theorem add_filter (out : Output) (line : PendingLine) :
    (out.add line).filter = out.filter := by
  simp only [add]
  split <;> rfl

@[simp] theorem add_scanner (out : Output) (line : PendingLine) :
    (out.add line).scanner = out.scanner := by
  simp only [add]
  split <;> rfl

/-- Lines that are still to come are rendered as if they were judged at the end, and so are those
that wait. The induction is on the calls; what is known about waiting lines carries it. -/
theorem takeAll_lines (calls : List OutputCall) {out : Output} {past : List Comment}
    (h : out.Waits past) :
    (out.takeAll calls).map lines =
      (OutputCall.forEach (OutputCall.render
        (out.filter.judges (past ++ out.scanner.comments (OutputCall.texts calls)))) calls
        ((out.scanner.processAll (OutputCall.texts calls)).1.map LinePieces.pieces)).map
        (out.settled
          (out.filter.judges (past ++ out.scanner.comments (OutputCall.texts calls))) ++ ·) := by
  induction calls generalizing out past with
  | nil =>
      have he := h.flush_emitted out.scanner.unclosed fun ho => by
        obtain ⟨o, ho⟩ := Option.isSome_iff_exists.mp ho
        exact ⟨o.comment false, by simp only [CommentScanner.unclosed, ho]; rfl, rfl⟩
      simp only [takeAll, Except.map, lines, he, OutputCall.forEach, List.append_nil,
        OutputCall.texts_nil, CommentScanner.comments_nil]
  | cons call rest ih =>
      cases call with
      | blank number line =>
          obtain ⟨hw, hs⟩ := Waits.add out _ (h.blank number line.ending)
            (out.scanner.comments (OutputCall.texts rest))
          have hi := ih hw
          rw [add_filter, add_scanner, hs] at hi
          rw [OutputCall.texts_blank, OutputCall.forEach_render_blank]
          refine Eq.trans hi ?_
          cases OutputCall.forEach _ rest _ with
          | error fault => rfl
          | ok more =>
              simp only [Except.map, List.append_assoc, List.singleton_append,
                PendingLine.render_blank]
      | code env number line =>
          rw [OutputCall.texts_code, CommentScanner.comments_cons, CommentScanner.processAll_cons,
            List.map_cons, OutputCall.forEach_render_code, takeAll, take, code_eq]
          cases hm : (out.scanner.process line.text).1.pieces.mapM (Rendered.ofPiece env) with
          | error fault => rfl
          | ok content =>
              obtain ⟨hw, hs⟩ := Waits.add { out with
                  scanner := (out.scanner.process line.text).2
                  ended := (out.scanner.process line.text).1.ended.reverse ++ out.ended } _
                (h.scan line number hm)
                ((out.scanner.process line.text).2.comments (OutputCall.texts rest))
              have hi := ih hw
              rw [add_filter, add_scanner, hs, List.append_assoc past] at hi
              refine Eq.trans hi ?_
              simp only [Except.map, Except.bind]
              cases OutputCall.forEach _ rest _ with
              | error fault => rfl
              | ok more => simp only [List.append_assoc, List.singleton_append, settled]

theorem lines_takeAll (style : CommentStyle) (filter : CommentFilter) (calls : List OutputCall) :
    ((start style filter).takeAll calls).map lines = OutputCall.batch style filter calls := by
  rw [takeAll_lines calls (waits_start style filter)]
  change Except.map id (OutputCall.batch style filter calls) = _
  cases OutputCall.batch style filter calls with
  | error fault => rfl
  | ok ls => rfl

end Output

namespace OutputCall

theorem ending_of_render {keep : Piece → Bool} {pieces : List Piece} {call : OutputCall}
    {line : OutputLine} (h : call.render keep pieces = .ok line) :
    line.ending = call.line.ending := by
  cases call with
  | blank number l =>
      cases h
      rfl
  | code env number l =>
      obtain ⟨kept, hk, h⟩ := bind_eq_ok.mp h
      cases h
      rfl

theorem endings_forEach {keep : Piece → Bool} {calls : List OutputCall}
    {scanned : List (List Piece)} {lines : List OutputLine}
    (h : forEach (render keep) calls scanned = .ok lines) :
    lines.map OutputLine.ending = calls.map fun call => call.line.ending := by
  induction calls generalizing scanned lines with
  | nil =>
      cases h
      rfl
  | cons call rest ih =>
      cases call with
      | blank number line =>
          obtain ⟨first, hf, h⟩ := bind_eq_ok.mp h
          obtain ⟨more, hm, h⟩ := bind_eq_ok.mp h
          cases h
          rw [List.map_cons, List.map_cons, ending_of_render hf, ih hm]
      | code env number line =>
          obtain ⟨first, hf, h⟩ := bind_eq_ok.mp h
          obtain ⟨more, hm, h⟩ := bind_eq_ok.mp h
          cases h
          rw [List.map_cons, List.map_cons, ending_of_render hf, ih hm]

end OutputCall

/-- The lines of any sequence of calls are those that the two passes give: every comment is judged
by its whole text, and no line is lost, repeated or moved. -/
theorem Output.streaming_eq_batch (style : CommentStyle) (filter : CommentFilter)
    (calls : List OutputCall) :
    ((start style filter).takeAll calls).map lines = OutputCall.batch style filter calls ∧
      (OutputCall.batch style filter calls).map (List.map OutputLine.ending) =
        (OutputCall.batch style filter calls).map fun _ => calls.map fun call => call.line.ending := by
  refine ⟨lines_takeAll style filter calls, ?_⟩
  cases h : OutputCall.batch style filter calls with
  | error fault => rfl
  | ok found => exact congrArg Except.ok (OutputCall.endings_forEach h)

end Prepass

/- The scanner as a loop over a line with a stack of states. -/
import Mathlib.Data.List.Find
import Prepass.Proofs.Comment.Literals
namespace Prepass

/-- What the scanner can be inside of. -/
inductive Layer where
  | topLevel
  | quotation
  | regex
  | regexClass
  | escaping
  | lineComment
  | blockComment
deriving DecidableEq

/-- What the loop keeps from line to line. -/
structure Registers where
  /-- The layers, innermost first. -/
  stack : List Layer
  quote : Option CodePoint
  closer : Option Text
  /-- The comment that is being read, with its parts so far. -/
  comment : Option Comment
  significant : Significant
  /-- How many comments have ended. -/
  count : Nat

/-- The loop at a place of a line. -/
structure ScanLoop extends Registers where
  /-- The character before the place. -/
  before : Option CodePoint
  /-- Where the piece at hand begins, and what has been read of it. -/
  column : Nat
  held : Text
  /-- What is finished of the line. -/
  found : LinePieces
  /-- What is left of the line. -/
  rest : Text

namespace ScanLoop

def push (layer : Layer) (w : ScanLoop) : ScanLoop := { w with stack := layer :: w.stack }

def pop (w : ScanLoop) : ScanLoop := { w with stack := w.stack.tail }

def advance (n : Nat) (w : ScanLoop) : ScanLoop :=
  { w with
    before := (w.rest.take n).getLast?.or w.before
    held := w.held ++ w.rest.take n
    rest := w.rest.drop n }

/-- Finishes the piece at hand, unless it is empty. -/
def flush (w : ScanLoop) : ScanLoop :=
  if w.held.isEmpty then w
  else
    { w with
      comment := w.comment.map fun c => { c with parts := c.parts ++ [w.held] }
      column := w.column + w.held.length
      held := []
      found := { w.found with
        pieces := w.found.pieces ++ [⟨w.column, w.held, w.comment.map fun _ => w.count⟩] } }

/-- Leaves the comment that is being read. -/
def endComment (w : ScanLoop) : ScanLoop :=
  { w with
    closer := none
    comment := none
    count := w.count + w.comment.toList.length
    found := { w.found with
      ended := w.found.ended ++ w.comment.toList.map fun c => { c with closed := true } } }

/-- One round of the loop. There is none at the end of a line, nor for a state that it does not
know. -/
def step (style : CommentStyle) (w : ScanLoop) : Option ScanLoop :=
  match w.stack, w.rest with
  | .topLevel :: _, c :: rest =>
    match style.lineOpener? (c :: rest) with
    | some opener =>
      some (({ w.flush with comment := some ⟨opener, [], true⟩ }.push .lineComment).advance
        w.rest.length)
    | none =>
      match style.blocks.find? (·.opener.isPrefixOf (c :: rest)) with
      | some delimiters =>
        some (({ w.flush with
          comment := some ⟨delimiters.opener, [], false⟩
          closer := some delimiters.closer }.push .blockComment).advance delimiters.opener.length)
      | none =>
        let next := ({ w with significant := w.significant.push w.before c }.advance 1)
        if style.quotes.contains c then some ({ next with quote := some c }.push .quotation)
        else if c = '/' ∧ style.regexLiterals ∧ w.significant.regexAllowed then
          some (next.push .regex)
        else some next
  | .quotation :: _, c :: _ =>
    if c = '\\' then some ((w.advance 1).push .escaping)
    else if w.quote = some c then some { (w.advance 1).pop with quote := none }
    else some (w.advance 1)
  | .regex :: _, c :: _ =>
    if c = '\\' then some ((w.advance 1).push .escaping)
    else if c = '[' then some ((w.advance 1).push .regexClass)
    else if c = '/' then some { (w.advance 1).pop with significant := ⟨some '/', []⟩ }
    else some (w.advance 1)
  | .regexClass :: _, c :: _ =>
    if c = '\\' then some ((w.advance 1).push .escaping)
    else if c = ']' then some (w.advance 1).pop
    else some (w.advance 1)
  | .escaping :: _, _ :: _ => some (w.advance 1).pop
  | .blockComment :: _, _ :: _ =>
    match w.closer with
    | some closer =>
      if closer.isPrefixOf w.rest then some ((w.advance closer.length).flush.endComment).pop
      else some (w.advance 1)
    | none => some (w.advance 1)
  | _, _ => none

/-- Round after round until nothing is left of the line. -/
inductive Runs (style : CommentStyle) : ScanLoop → ScanLoop → Prop
  | done {w : ScanLoop} : w.rest = [] → Runs style w w
  | next {w v u : ScanLoop} : w.rest ≠ [] → w.step style = some v → Runs style v u →
      Runs style w u

/-- What is left of the stack at the end of a line: an escape ends, and with it the literal unless
its quotes may span lines. -/
def newline (style : CommentStyle) (w : ScanLoop) : ScanLoop :=
  let w := if w.stack.head? = some .escaping then w.pop else w
  match w.stack with
  | .regex :: _ | .regexClass :: _ => { w with stack := [.topLevel] }
  | .lineComment :: _ => { w.endComment with stack := [.topLevel] }
  | .quotation :: _ =>
    if w.quote.any style.multilineQuotes.contains then w
    else { w with stack := [.topLevel], quote := none }
  | _ => w

/-- The end of a line. A comment that is open takes note of an empty line. -/
def finish (style : CommentStyle) (line : Text) (w : ScanLoop) : LinePieces × Registers :=
  let w := w.flush
  let w := if line.isEmpty then
    { w with comment := w.comment.map fun c => { c with parts := c.parts ++ [[]] } } else w
  let w := w.newline style
  (w.found, w.toRegisters)

end ScanLoop

/-- The layers of a mode. -/
def LiteralMode.layers : LiteralMode → List Layer
  | .quotation _ => [.quotation, .topLevel]
  | .regex => [.regex, .topLevel]
  | .regexClass => [.regexClass, .regex, .topLevel]

def ScanMode.layers : ScanMode → List Layer
  | .topLevel => [.topLevel]
  | .literal inside => inside.layers
  | .escaping inside => .escaping :: inside.layers

def LiteralMode.quote? : LiteralMode → Option CodePoint
  | .quotation quote => some quote
  | .regex | .regexClass => none

def ScanMode.quote? : ScanMode → Option CodePoint
  | .topLevel => none
  | .literal inside | .escaping inside => inside.quote?

/-- The scanner between two lines, as the loop sees it. -/
def CommentScanner.registers (s : CommentScanner) : Registers :=
  { stack := s.current.toList.map (fun _ => Layer.blockComment) ++ s.mode.layers
    quote := s.mode.quote?
    closer := s.current.map (·.delimiters.closer)
    comment := s.current.map (·.comment false)
    significant := s.significant
    count := s.count }

/-- The loop at the beginning of a line. -/
def CommentScanner.enter (s : CommentScanner) (line : Text) : ScanLoop :=
  { s.registers with before := none, column := 0, held := [], found := {}, rest := line }

namespace CommentStyle

/-- No block comment both begins and ends with nothing. -/
def Delimiting (style : CommentStyle) : Prop :=
  ∀ d ∈ style.blocks, ¬ (d.opener = [] ∧ d.closer = [])

instance (style : CommentStyle) : Decidable style.Delimiting :=
  inferInstanceAs (Decidable (∀ d ∈ style.blocks, ¬ (d.opener = [] ∧ d.closer = [])))

variable {style : CommentStyle}

theorem Delimiting.find?_eq (h : style.Delimiting) (t : Text) :
    style.blocks.find? (·.opener.isPrefixOf t) = style.blockAt? t := by
  apply List.find?_congr
  intro d hd
  have hne : (d.opener.isEmpty && d.closer.isEmpty) = false := by
    rw [Bool.eq_false_iff, Ne, Bool.and_eq_true_iff, List.isEmpty_iff, List.isEmpty_iff]
    exact h d hd
  rw [hne, Bool.not_false, Bool.true_and]

theorem scanFrom_skip (mode : ScanMode) (significant : Significant) (before : Option CodePoint)
    (u t : Text) :
    style.scanFrom mode significant before u.length (u ++ t) =
      style.scanFrom mode significant (u.getLast?.or before) 0 t := by
  induction u generalizing before with
  | nil => rfl
  | cons c rest ih =>
      rw [List.length_cons, List.cons_append, scanFrom, ih, Text.getLast?_cons_or]

/-- Behind a block comment that ends on the line the scan goes on at top level. -/
theorem scanFrom_block {d : BlockDelimiters} {inside after : Text} (significant : Significant)
    (before : Option CodePoint) (hl : style.lineOpener? (d.opener ++ inside ++ after) = none)
    (hb : style.blockAt? (d.opener ++ inside ++ after) = some d)
    (hi : upToCloser? d.closer (inside ++ after) = some inside) :
    style.scanFrom .topLevel significant before 0 (d.opener ++ inside ++ after) =
      (style.scanFrom .topLevel significant ((d.opener ++ inside).getLast?.or before) 0
        after).pushComment (.blockComment d (d.opener ++ inside) true) := by
  have hdrop : (d.opener ++ inside ++ after).drop d.opener.length = inside ++ after := by
    rw [List.append_assoc, List.drop_left]
  rw [← scanFrom_skip]
  obtain ⟨c, rest, hc⟩ := List.exists_cons_of_ne_nil (block_ne_nil hb hi)
  rw [hc, List.cons_append] at hl hb hdrop ⊢
  simp only [scanFrom, hl, hb, hdrop, hi, hc, List.length_cons, Nat.add_sub_cancel]

end CommentStyle

theorem ScannedLine.state_pushText (held : Text) (s : ScannedLine) :
    (s.pushText held).mode = s.mode ∧ (s.pushText held).significant = s.significant := by
  cases held with
  | nil => exact ⟨rfl, rfl⟩
  | cons c rest =>
      rw [pushText_eq (List.cons_ne_nil c rest)]
      exact ⟨rfl, rfl⟩

/-- A piece of what has been read, if anything has. -/
def Piece.ofHeld (column : Nat) (held : Text) (comment : Option Nat) : List Piece :=
  if held.isEmpty then [] else [⟨column, held, comment⟩]

/-- The part of a comment that has been read on a line, if anything has. -/
def Comment.heldPart (held : Text) : List Text := if held.isEmpty then [] else [held]

theorem Comment.heldPart_nil : Comment.heldPart [] = [] := rfl

namespace LinePieces

instance : Append LinePieces := ⟨fun a b => ⟨a.pieces ++ b.pieces, a.ended ++ b.ended⟩⟩

theorem append_assoc (a b c : LinePieces) : a ++ b ++ c = a ++ (b ++ c) :=
  congrArg₂ LinePieces.mk (List.append_assoc ..) (List.append_assoc ..)

theorem append_empty (a : LinePieces) : a ++ ({} : LinePieces) = a :=
  congrArg₂ LinePieces.mk (List.append_nil _) (List.append_nil _)

theorem pieces_append_ended (pieces : List Piece) (ended : List Comment) :
    (⟨pieces, []⟩ : LinePieces) ++ (⟨[], ended⟩ : LinePieces) = ⟨pieces, ended⟩ :=
  congrArg (LinePieces.mk · ended) (List.append_nil pieces)

/-- The code before spans that begin with a comment is a piece of its own. -/
theorem ofSpans_pushText (column number : Nat) (held : Text) {s : ScannedLine}
    (hs : ∀ t, Span.code t ∉ s.spans.head?) :
    ofSpans column number (s.pushText held).spans =
      let r := ofSpans (column + held.length) number s.spans
      (⟨Piece.ofHeld column held none, []⟩ ++ r.1, r.2) := by
  cases held with
  | nil => rfl
  | cons c rest =>
      rw [ScannedLine.pushText_eq (List.cons_ne_nil c rest)]
      obtain ⟨_ | ⟨_ | _ | _, more⟩, mode, significant⟩ := s
      · rfl
      · exact absurd rfl (hs _)
      · rfl
      · rfl

end LinePieces

namespace CommentScanner

/-- Scans from a place on where some code has been read that no piece has taken. -/
def scanHeld (s : CommentScanner) (held : Text) (column : Nat) (before : Option CodePoint)
    (t : Text) : LinePieces × CommentScanner :=
  let scanned := (s.style.scanFrom s.mode s.significant before 0 t).pushText held
  let (line, current) := LinePieces.ofSpans column s.count scanned.spans
  (line, { s with
    mode := s.style.modeAtNewline scanned.mode
    significant := scanned.significant
    count := s.count + line.ended.length
    current })

theorem scanHeld_nil (s : CommentScanner) (column : Nat) (before : Option CodePoint) (t : Text) :
    s.scanHeld [] column before t = s.scanCode column before t := rfl

variable {style : CommentStyle} {mode next : ScanMode} {significant after : Significant}
  {before : Option CodePoint} {count : Nat} {current : Option OpenComment}

theorem scanHeld_pushCode {c : CodePoint} {t : Text} (held : Text) (column : Nat)
    (h : style.scanFrom mode significant before 0 (c :: t) =
      (style.scanFrom next after (some c) 0 t).pushCode c) :
    scanHeld ⟨style, mode, significant, count, current⟩ held column before (c :: t) =
      scanHeld ⟨style, next, after, count, current⟩ (held ++ [c]) column (some c) t := by
  simp only [scanHeld, h, ScannedLine.pushText, List.foldr_append, List.foldr_cons, List.foldr_nil]

/-- Where a comment or nothing comes next, the code that has been read makes a piece of its own. -/
theorem scanHeld_eq {t : Text} {scanned : ScannedLine} (held : Text) (column : Nat)
    (h : style.scanFrom mode significant before 0 t = scanned)
    (hs : ∀ u, Span.code u ∉ scanned.spans.head?) :
    scanHeld ⟨style, mode, significant, count, current⟩ held column before t =
      let r := LinePieces.ofSpans (column + held.length) count scanned.spans
      (⟨Piece.ofHeld column held none, []⟩ ++ r.1, ⟨style, style.modeAtNewline scanned.mode,
        scanned.significant, count + r.1.ended.length, r.2⟩) := by
  obtain ⟨hmode, hsignificant⟩ := scanned.state_pushText held
  simp only [scanHeld, h, hmode, hsignificant, LinePieces.ofSpans_pushText column count held hs]
  rfl

theorem scanHeld_end (held : Text) (column : Nat) :
    scanHeld ⟨style, mode, significant, count, current⟩ held column before [] =
      (⟨Piece.ofHeld column held none, []⟩,
        ⟨style, style.modeAtNewline mode, significant, count, none⟩) := by
  have hscan : style.scanFrom mode significant before 0 [] = ⟨[], mode, significant⟩ := rfl
  rw [scanHeld_eq held column hscan (by rintro u ⟨⟩)]
  exact congrArg (·, _) (LinePieces.append_empty _)

variable {c : CodePoint} {rest : Text}

theorem scanHeld_lineComment {opener : Text} (held : Text) (column : Nat)
    (hl : style.lineOpener? (c :: rest) = some opener) :
    scanHeld ⟨style, .topLevel, significant, count, current⟩ held column before (c :: rest) =
      (⟨Piece.ofHeld column held none, []⟩ ++
          ⟨[⟨column + held.length, c :: rest, some count⟩], [⟨opener, [c :: rest], true⟩]⟩,
        ⟨style, .topLevel, significant, count + 1, none⟩) := by
  have hscan : style.scanFrom .topLevel significant before 0 (c :: rest) =
      ⟨[.lineComment opener (c :: rest)], .topLevel, significant⟩ := by
    simp only [CommentStyle.scanFrom, hl]
  rw [scanHeld_eq held column hscan (by rintro u ⟨⟩)]
  rfl

variable {d : BlockDelimiters} {inside : Text}

theorem scanHeld_unclosed (held : Text) (column : Nat)
    (hl : style.lineOpener? (c :: rest) = none) (hb : style.blockAt? (c :: rest) = some d)
    (hi : upToCloser? d.closer ((c :: rest).drop d.opener.length) = none) :
    scanHeld ⟨style, .topLevel, significant, count, current⟩ held column before (c :: rest) =
      (⟨Piece.ofHeld column held none, []⟩ ++
          ⟨[⟨column + held.length, c :: rest, some count⟩], []⟩,
        ⟨style, .topLevel, significant, count, some ⟨d, [c :: rest]⟩⟩) := by
  have hscan : style.scanFrom .topLevel significant before 0 (c :: rest) =
      ⟨[.blockComment d (c :: rest) false], .topLevel, significant⟩ := by
    simp only [CommentStyle.scanFrom, hl, hb, hi]
  rw [scanHeld_eq held column hscan (by rintro u ⟨⟩)]
  rfl

theorem scanHeld_block {tail : Text} (held : Text) (column : Nat)
    (hl : style.lineOpener? (d.opener ++ inside ++ tail) = none)
    (hb : style.blockAt? (d.opener ++ inside ++ tail) = some d)
    (hi : upToCloser? d.closer (inside ++ tail) = some inside) :
    scanHeld ⟨style, .topLevel, significant, count, current⟩ held column before
        (d.opener ++ inside ++ tail) =
      let text := d.opener ++ inside
      let r := scanHeld ⟨style, .topLevel, significant, count + 1, current⟩ []
        (column + held.length + text.length) (inside.getLast?.or (d.opener.getLast?.or before)) tail
      (⟨Piece.ofHeld column held none, []⟩ ++
          (⟨Piece.ofHeld (column + held.length) text (some count),
            [⟨d.opener, Comment.heldPart text, true⟩]⟩ ++ r.1), r.2) := by
  have hne : ¬ (d.opener ++ inside).isEmpty = true :=
    mt List.isEmpty_iff.mp (CommentStyle.block_ne_nil hb hi)
  have hcount (ended : List Comment) (first : Comment) :
      count + (first :: ended).length = count + 1 + ended.length := by
    rw [List.length_cons, Nat.add_assoc, Nat.add_comm 1]
  have hscan := CommentStyle.scanFrom_block significant before hl hb hi
  rw [List.getLast?_append, Option.or_assoc] at hscan
  rw [scanHeld_eq held column hscan (by rintro u ⟨⟩)]
  simp only [ScannedLine.pushComment, LinePieces.ofSpans_block, hcount, Piece.ofHeld,
    Comment.heldPart, if_neg hne]
  rfl

end CommentScanner

namespace ScanLoop

variable {style : CommentStyle} {w u : ScanLoop} {closer inside : Text}

theorem advance_advance (m n : Nat) (w : ScanLoop) :
    (w.advance m).advance n = w.advance (m + n) := by
  simp only [advance, List.take_add, List.getLast?_append, Option.or_assoc, List.append_assoc,
    List.drop_drop]

theorem advance_zero (w : ScanLoop) : w.advance 0 = w := by
  rw [advance, List.take_zero, List.append_nil]
  rfl

theorem step_blockComment (style : CommentStyle) {below : List Layer}
    (hs : w.stack = .blockComment :: below) (hc : w.closer = some closer) (hr : w.rest ≠ []) :
    w.step style =
      if closer.isPrefixOf w.rest then some ((w.advance closer.length).flush.endComment).pop
      else some (w.advance 1) := by
  obtain ⟨c, rest, hrest⟩ := List.exists_cons_of_ne_nil hr
  simp only [step, hs, hc, hrest]

theorem rest_advance_one {c : CodePoint} {rest : Text} (h : w.rest = c :: rest) :
    (w.advance 1).rest = rest := by
  rw [advance, h, List.drop_one, List.tail_cons]

/-- In a block comment the loop reads on to the closer. -/
theorem runs_closing {below : List Layer} (hs : w.stack = .blockComment :: below)
    (hc : w.closer = some closer) (hi : upToCloser? closer w.rest = some inside)
    (hr : Runs style ((w.advance inside.length).flush.endComment).pop u) : Runs style w u := by
  induction ht : w.rest generalizing w inside with
  | nil =>
      rw [ht] at hi
      cases hi
  | cons c rest ih =>
      have hne : w.rest ≠ [] := ht ▸ List.cons_ne_nil c rest
      have hstep := step_blockComment style hs hc hne
      rw [ht, upToCloser?] at hi
      rw [ht] at hstep
      split at hi
      · rename_i hp
        cases hi
        rw [if_pos hp] at hstep
        exact .next hne hstep hr
      · rename_i hp
        obtain ⟨more, hm, rfl⟩ := Option.map_eq_some_iff.mp hi
        rw [if_neg hp] at hstep
        have hrest := rest_advance_one ht
        refine .next hne hstep (ih hs hc (hrest ▸ hm) ?_ hrest)
        rw [advance_advance, Nat.add_comm]
        exact hr

/-- Without a closer, a block comment takes the rest of the line. -/
theorem runs_staying {below : List Layer} (hs : w.stack = .blockComment :: below)
    (hc : w.closer = some closer) (hi : upToCloser? closer w.rest = none) :
    Runs style w (w.advance w.rest.length) := by
  induction ht : w.rest generalizing w with
  | nil =>
      rw [List.length_nil, advance_zero]
      exact .done ht
  | cons c rest ih =>
      have hne : w.rest ≠ [] := ht ▸ List.cons_ne_nil c rest
      have hstep := step_blockComment style hs hc hne
      rw [ht, upToCloser?] at hi
      rw [ht] at hstep
      split at hi
      · cases hi
      · rename_i hp
        rw [if_neg hp] at hstep
        have hrest := rest_advance_one ht
        have hnone : upToCloser? closer (w.advance 1).rest = none := by
          rw [hrest]
          exact Option.map_eq_none_iff.mp hi
        have hmore := ih (w := w.advance 1) hs hc hnone hrest
        rw [advance_advance, Nat.add_comm] at hmore
        exact .next hne hstep hmore

/-- The loop outside of comments. -/
def code (mode : ScanMode) (significant : Significant) (count : Nat) (before : Option CodePoint)
    (column : Nat) (held : Text) (found : LinePieces) (rest : Text) : ScanLoop :=
  { stack := mode.layers, quote := mode.quote?, closer := none, comment := none, significant, count,
    before, column, held, found, rest }

section Code

variable (significant : Significant) (count : Nat) (before : Option CodePoint) (column : Nat)
  (held : Text) (found : LinePieces)

theorem step_literal (inside : LiteralMode) (c : CodePoint) (rest : Text) :
    (code (.literal inside) significant count before column held found (c :: rest)).step style =
      some (code (inside.next c)
        (if inside = .regex ∧ c = '/' then ⟨some '/', []⟩ else significant) count (some c) column
        (held ++ [c]) found rest) := by
  by_cases hb : c = '\\'
  · subst hb
    cases inside <;> rfl
  · cases inside with
    | quotation quote =>
        by_cases hq : c = quote
        · subst hq
          simp only [step, code, ScanMode.layers, LiteralMode.layers, LiteralMode.next,
            ScanMode.quote?, LiteralMode.quote?, if_neg hb, if_true]
          rfl
        · have hne : some quote ≠ some c := fun he => hq (Option.some.inj he).symm
          simp only [step, code, ScanMode.layers, LiteralMode.layers, LiteralMode.next,
            ScanMode.quote?, LiteralMode.quote?, if_neg hb, if_neg hq]
          exact if_neg hne
    | regex =>
        simp only [step, code, ScanMode.layers, LiteralMode.layers, LiteralMode.next, if_neg hb]
        by_cases ho : c = '['
        · subst ho
          rfl
        · by_cases hs : c = '/'
          · subst hs
            rfl
          · simp only [if_neg ho, hs, and_false, if_false]
            rfl
    | regexClass =>
        simp only [step, code, ScanMode.layers, LiteralMode.layers, LiteralMode.next, if_neg hb]
        by_cases ho : c = ']'
        · subst ho
          rfl
        · simp only [if_neg ho]
          rfl

theorem step_escaping (inside : LiteralMode) (c : CodePoint) (rest : Text) :
    (code (.escaping inside) significant count before column held found (c :: rest)).step style =
      some (code (.literal inside) significant count (some c) column (held ++ [c]) found rest) :=
  rfl

theorem step_topLevel {c : CodePoint} {rest : Text} (hl : style.lineOpener? (c :: rest) = none)
    (hb : style.blocks.find? (·.opener.isPrefixOf (c :: rest)) = none) :
    (code .topLevel significant count before column held found (c :: rest)).step style =
      some (code (style.modeAfter significant c) (significant.push before c) count (some c) column
        (held ++ [c]) found rest) := by
  simp only [step, code, ScanMode.layers, hl, hb, CommentStyle.modeAfter]
  by_cases hq : style.quotes.contains c = true
  · simp only [if_pos hq]
    rfl
  · simp only [if_neg hq]
    by_cases hr : c = '/' ∧ style.regexLiterals ∧ significant.regexAllowed
    · rw [if_pos hr]
      exact if_pos hr
    · rw [if_neg hr]
      exact if_neg hr

theorem newline_code (mode : ScanMode) (rest : Text) :
    (code mode significant count before column held found rest).newline style =
      code (style.modeAtNewline mode) significant count before column held found rest := by
  match mode with
  | .topLevel | .literal .regex | .literal .regexClass | .escaping .regex
  | .escaping .regexClass => rfl
  | .literal (.quotation quote) | .escaping (.quotation quote) =>
    by_cases hm : style.multilineQuotes.contains quote = true
    · rw [CommentStyle.modeAtNewline, if_pos hm]
      exact if_pos hm
    · rw [CommentStyle.modeAtNewline, if_neg hm]
      exact if_neg hm

theorem flush_code (mode : ScanMode) (rest : Text) :
    (code mode significant count before column held found rest).flush =
      code mode significant count before (column + held.length) []
        (found ++ ⟨Piece.ofHeld column held none, []⟩) rest := by
  cases held with
  | nil =>
      exact congrArg (code mode significant count before column [] · rest)
        found.append_empty.symm
  | cons c more =>
      exact congrArg (fun ended => code mode significant count before _ [] ⟨_, ended⟩ rest)
        (List.append_nil found.ended).symm

end Code

/-- The loop in a block comment, with the parts of the comment from the lines before. -/
def inBlock (d : BlockDelimiters) (parts : List Text) (significant : Significant) (count : Nat)
    (before : Option CodePoint) (column : Nat) (held : Text) (found : LinePieces) (rest : Text) :
    ScanLoop :=
  { stack := [.blockComment, .topLevel], quote := none, closer := some d.closer
    comment := some ⟨d.opener, parts, false⟩
    significant, count, before, column, held, found, rest }

/-- The loop comes to the end of the line, and this is what it leaves. -/
def Finishes (style : CommentStyle) (line : Text) (w : ScanLoop)
    (result : LinePieces × Registers) : Prop :=
  ∃ v, Runs style w v ∧ v.finish style line = result

theorem Finishes.next {line : Text} {w v : ScanLoop} {result : LinePieces × Registers}
    (hr : w.rest ≠ []) (hs : w.step style = some v) (h : Finishes style line v result) :
    Finishes style line w result :=
  let ⟨u, hv, hu⟩ := h
  ⟨u, .next hr hs hv, hu⟩

section Blocks

variable {d : BlockDelimiters} {line t after : Text} (parts : List Text)
  (significant : Significant) (count : Nat) (before : Option CodePoint) (column : Nat)
  (held : Text) (found : LinePieces)

theorem advance_inBlock (u : Text) :
    (inBlock d parts significant count before column held found (u ++ t)).advance u.length =
      inBlock d parts significant count (u.getLast?.or before) column (held ++ u) found t := by
  simp only [advance, inBlock, List.take_left, List.drop_left]

theorem flush_inBlock :
    (inBlock d parts significant count before column held found t).flush =
      inBlock d (parts ++ Comment.heldPart held) significant count before (column + held.length) []
        (found ++ ⟨Piece.ofHeld column held (some count), []⟩) t := by
  cases held with
  | nil =>
      rw [Comment.heldPart_nil, List.append_nil]
      exact congrArg (inBlock d parts significant count before column [] · t)
        found.append_empty.symm
  | cons c more =>
      exact congrArg (fun ended => inBlock d _ significant count before _ [] ⟨_, ended⟩ t)
        (List.append_nil found.ended).symm

theorem pop_endComment_inBlock :
    (inBlock d parts significant count before column held found t).endComment.pop =
      code .topLevel significant (count + 1) before column held
        (found ++ ⟨[], [⟨d.opener, parts, true⟩]⟩) t :=
  congrArg (fun pieces => code .topLevel significant (count + 1) before column held ⟨pieces, _⟩ t)
    (List.append_nil found.pieces).symm

/-- An empty line is a part of the comment as well, though it makes no piece. -/
theorem finish_inBlock (hl : line = [] ↔ held = []) :
    (inBlock d parts significant count before column held found t).finish style line =
      (found ++ ⟨Piece.ofHeld column held (some count), []⟩,
        CommentScanner.registers ⟨style, .topLevel, significant, count,
          some ⟨d, held :: parts.reverse⟩⟩) := by
  have hparts : (held :: parts.reverse).reverse = parts ++ [held] := by
    rw [List.reverse_cons, List.reverse_reverse]
  rw [finish, flush_inBlock]
  simp only [CommentScanner.registers, Option.map_some, OpenComment.comment, hparts]
  cases held with
  | nil =>
      obtain rfl := hl.mpr rfl
      rw [Comment.heldPart_nil, List.append_nil]
      rfl
  | cons c more =>
      have hline : ¬ line.isEmpty = true :=
        fun he => List.cons_ne_nil c more (hl.mp (List.isEmpty_iff.mp he))
      rw [if_neg hline]
      rfl

/-- A block comment without a closer on the line takes what is left of it. -/
theorem finishes_staying (hi : upToCloser? d.closer t = none) (hl : line = [] ↔ held ++ t = []) :
    Finishes style line (inBlock d parts significant count before column held found t)
      (found ++ ⟨Piece.ofHeld column (held ++ t) (some count), []⟩,
        CommentScanner.registers ⟨style, .topLevel, significant, count,
          some ⟨d, (held ++ t) :: parts.reverse⟩⟩) := by
  have hend : (inBlock d parts significant count before column held found t).advance t.length =
      inBlock d parts significant count (t.getLast?.or before) column (held ++ t) found [] := by
    simpa only [List.append_nil] using
      @advance_inBlock d [] parts significant count before column held found t
  have hr : Runs style (inBlock d parts significant count before column held found t)
      ((inBlock d parts significant count before column held found t).advance t.length) :=
    runs_staying rfl rfl hi
  rw [hend] at hr
  exact ⟨_, hr, finish_inBlock parts significant count _ column _ found hl⟩

/-- Behind a block comment that ends on the line the loop is outside of comments. -/
theorem finishes_closing {result : LinePieces × Registers}
    (hi : upToCloser? d.closer (inside ++ after) = some inside)
    (h : Finishes style line (code .topLevel significant (count + 1) (inside.getLast?.or before)
      (column + (held ++ inside).length) [] (found ++
        ⟨Piece.ofHeld column (held ++ inside) (some count),
          [⟨d.opener, parts ++ Comment.heldPart (held ++ inside), true⟩]⟩) after) result) :
    Finishes style line (inBlock d parts significant count before column held found
      (inside ++ after)) result := by
  obtain ⟨u, hr, hu⟩ := h
  refine ⟨u, runs_closing rfl rfl hi ?_, hu⟩
  rw [advance_inBlock, flush_inBlock, pop_endComment_inBlock, LinePieces.append_assoc,
    LinePieces.pieces_append_ended]
  exact hr

end Blocks

section Line

variable {line rest : Text} {c : CodePoint} (significant : Significant) (count : Nat)
  (before : Option CodePoint) (column : Nat) (held : Text) (found : LinePieces)

theorem finish_code (mode : ScanMode) (t : Text) :
    (code mode significant count before column held found t).finish style line =
      (found ++ ⟨Piece.ofHeld column held none, []⟩,
        CommentScanner.registers ⟨style, style.modeAtNewline mode, significant, count, none⟩) := by
  rw [finish, flush_code]
  have hnew := @newline_code style significant count before (column + held.length) []
    (found ++ ⟨Piece.ofHeld column held none, []⟩) mode t
  split
  · exact congrArg (fun w => (w.found, w.toRegisters)) hnew
  · exact congrArg (fun w => (w.found, w.toRegisters)) hnew

theorem step_lineComment {opener : Text} (hl : style.lineOpener? (c :: rest) = some opener) :
    (code .topLevel significant count before column held found (c :: rest)).step style =
      some { stack := [.lineComment, .topLevel], quote := none, closer := none
             comment := some ⟨opener, [], true⟩, significant, count
             before := (c :: rest).getLast?.or before, column := column + held.length
             held := c :: rest, rest := []
             found := found ++ ⟨Piece.ofHeld column held none, []⟩ } := by
  have hs : (code .topLevel significant count before column held found (c :: rest)).step style =
      some (({ (code .topLevel significant count before column held found (c :: rest)).flush with
        comment := some ⟨opener, [], true⟩ }.push .lineComment).advance (c :: rest).length) := by
    simp only [step, code, ScanMode.layers, hl]
  rw [hs, flush_code]
  simp only [advance, push, code, ScanMode.layers, ScanMode.quote?, List.take_length,
    List.drop_length, List.nil_append]

/-- A line comment takes the rest of the line. -/
theorem finishes_lineComment {opener : Text} (hl : style.lineOpener? (c :: rest) = some opener)
    (hline : line ≠ []) :
    Finishes style line (code .topLevel significant count before column held found (c :: rest))
      (found ++ (⟨Piece.ofHeld column held none, []⟩ ++
          ⟨[⟨column + held.length, c :: rest, some count⟩], [⟨opener, [c :: rest], true⟩]⟩),
        CommentScanner.registers ⟨style, .topLevel, significant, count + 1, none⟩) := by
  have hs := step_lineComment significant count before column held found hl
  refine .next (List.cons_ne_nil c rest) hs ⟨_, .done rfl, ?_⟩
  rw [finish, if_neg (mt List.isEmpty_iff.mp hline), ← LinePieces.append_assoc]
  rfl

theorem step_block {d : BlockDelimiters} {tail : Text} (ht : d.opener ++ tail = c :: rest)
    (hl : style.lineOpener? (c :: rest) = none)
    (hb : style.blocks.find? (·.opener.isPrefixOf (c :: rest)) = some d) :
    (code .topLevel significant count before column held found (c :: rest)).step style =
      some (inBlock d [] significant count (d.opener.getLast?.or before) (column + held.length)
        d.opener (found ++ ⟨Piece.ofHeld column held none, []⟩) tail) := by
  have hs : (code .topLevel significant count before column held found (c :: rest)).step style =
      some (({ (code .topLevel significant count before column held found (c :: rest)).flush with
        comment := some ⟨d.opener, [], false⟩
        closer := some d.closer }.push .blockComment).advance d.opener.length) := by
    simp only [step, code, ScanMode.layers, hl, hb]
  rw [hs, flush_code, ← ht]
  exact congrArg some (@advance_inBlock d tail [] significant count before (column + held.length) []
    (found ++ (⟨Piece.ofHeld column held none, []⟩ : LinePieces)) d.opener)

/-- The loop outside of comments leaves what the scan of the rest of the line gives. -/
theorem finishes_code (hd : style.Delimiting) (mode : ScanMode) (t : Text)
    (ht : t ≠ [] → line ≠ []) :
    Finishes style line (code mode significant count before column held found t)
      (let r := CommentScanner.scanHeld ⟨style, mode, significant, count, none⟩ held column before t
       (found ++ r.1, r.2.registers)) := by
  -- A comment that ends on the line takes the loop several rounds and the scan one, so the
  -- induction is on the length of what is left.
  induction hn : t.length using Nat.strong_induction_on
    generalizing mode significant count before column held found t with
  | _ n ih =>
  cases t with
  | nil =>
      rw [CommentScanner.scanHeld_end]
      exact ⟨_, .done rfl, finish_code ..⟩
  | cons c rest =>
      have hline := ht (List.cons_ne_nil c rest)
      have hlt : rest.length < n := hn ▸ Nat.lt_succ_self rest.length
      have next {next : ScanMode} {after : Significant}
          (hs : (code mode significant count before column held found (c :: rest)).step style =
            some (code next after count (some c) column (held ++ [c]) found rest))
          (hscan : style.scanFrom mode significant before 0 (c :: rest) =
            (style.scanFrom next after (some c) 0 rest).pushCode c) :
          Finishes style line (code mode significant count before column held found (c :: rest))
            (let r := CommentScanner.scanHeld ⟨style, mode, significant, count, none⟩ held column
              before (c :: rest)
             (found ++ r.1, r.2.registers)) := by
        rw [CommentScanner.scanHeld_pushCode held column hscan]
        exact .next (List.cons_ne_nil c rest) hs
          (ih rest.length hlt _ _ _ _ _ _ _ rest (fun _ => hline) rfl)
      cases mode with
      | literal inside => exact next (step_literal ..) rfl
      | escaping inside => exact next (step_escaping ..) rfl
      | topLevel =>
          cases hl : style.lineOpener? (c :: rest) with
          | some opener =>
              rw [CommentScanner.scanHeld_lineComment held column hl]
              exact finishes_lineComment significant count before column held found hl hline
          | none =>
              cases hb : style.blockAt? (c :: rest) with
              | none =>
                  exact next (step_topLevel _ _ _ _ _ _ hl ((hd.find?_eq _).trans hb))
                    (by simp only [CommentStyle.scanFrom, hl, hb])
              | some d =>
                  obtain ⟨⟨tail, htail⟩, -⟩ := CommentStyle.blockAt?_opener hb
                  have hs := step_block significant count before column held found htail hl
                    ((hd.find?_eq _).trans hb)
                  refine .next (List.cons_ne_nil c rest) hs ?_
                  cases hi : upToCloser? d.closer tail with
                  | none =>
                      have hdrop : (c :: rest).drop d.opener.length = tail := by
                        rw [← htail, List.drop_left]
                      have hne : line = [] ↔ d.opener ++ tail = [] :=
                        iff_of_false hline (htail ▸ List.cons_ne_nil c rest)
                      rw [CommentScanner.scanHeld_unclosed held column hl hb (hdrop ▸ hi)]
                      have hfinish := @finishes_staying style d line tail [] significant count
                        (d.opener.getLast?.or before) (column + held.length) d.opener
                        (found ++ ⟨Piece.ofHeld column held none, []⟩) hi hne
                      rw [LinePieces.append_assoc, htail] at hfinish
                      exact hfinish
                  | some inside =>
                      obtain ⟨after, rfl⟩ := upToCloser?_prefix hi
                      rw [← List.append_assoc] at htail
                      rw [← htail] at hl hb hn ⊢
                      have hshort : after.length < n := by
                        have hpos := List.length_pos_iff.mpr (CommentStyle.block_ne_nil hb hi)
                        rw [List.length_append] at hn
                        omega
                      apply finishes_closing _ _ _ _ _ _ _ hi
                      simp only [CommentScanner.scanHeld_block held column hl hb hi,
                        ← LinePieces.append_assoc]
                      exact ih after.length hshort _ _ _ _ _ _ _ after (fun _ => hline) rfl

end Line

end ScanLoop

namespace CommentScanner

open ScanLoop

/-- The loop leaves what the scanner gives, if block comments stand by themselves on the stack. -/
theorem finishes_process {s : CommentScanner} (hd : s.style.Delimiting)
    (hm : s.current.isSome → s.mode = .topLevel) (line : Text) :
    Finishes s.style line (s.enter line) ((s.process line).1, (s.process line).2.registers) := by
  obtain ⟨style, mode, significant, count, current⟩ := s
  cases current with
  | none =>
      rw [process_outside rfl, ← scanHeld_nil]
      exact finishes_code significant count none 0 [] {} hd mode line id
  | some o =>
      obtain rfl : mode = .topLevel := hm rfl
      cases hi : upToCloser? o.delimiters.closer line with
      | none =>
          rw [process_staying rfl hi]
          have hfinish := @finishes_staying style o.delimiters line line o.parts.reverse significant
            count none 0 [] {} hi Iff.rfl
          rw [List.reverse_reverse] at hfinish
          exact hfinish
      | some inside =>
          obtain ⟨after, rfl⟩ := upToCloser?_prefix hi
          have hne : after ≠ [] → inside ++ after ≠ [] :=
            List.append_ne_nil_of_right_ne_nil inside
          refine finishes_closing o.parts.reverse significant count none 0 [] {} hi ?_
          rw [process_closing rfl hi, List.drop_left, Option.or_none, Nat.zero_add, List.nil_append]
          cases inside with
          | nil =>
              have hrest := @finishes_code style after significant (count + 1) none 0 []
                ⟨[], [o.comment true]⟩ hd .topLevel after hne
              rw [Comment.heldPart_nil, List.append_nil]
              exact hrest
          | cons c more =>
              have hrest := @finishes_code style (c :: more ++ after) significant (count + 1)
                (c :: more).getLast? (c :: more).length []
                ⟨[⟨0, c :: more, some count⟩], [(o.addPart (c :: more)).comment true]⟩ hd .topLevel
                after hne
              have hcomment : (o.addPart (c :: more)).comment true =
                  ⟨o.delimiters.opener, o.parts.reverse ++ Comment.heldPart (c :: more), true⟩ :=
                congrArg (Comment.mk o.delimiters.opener · true) List.reverse_cons
              rw [← hcomment]
              exact hrest

end CommentScanner

end Prepass
